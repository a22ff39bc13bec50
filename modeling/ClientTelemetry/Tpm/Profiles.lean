import ClientTelemetry.Common.Run
import ClientTelemetry.Tpm.Model.TransmitProfiles
/-!
# Which rule is selected

Every call that touches the profiles ends in `updateStates`, which
selects the first rule that fits. So once a call other than
`updateStates` was made, the built-in profiles and the current one are
installed and the current rule is the one that `updateStates` would
select (`Settled`), after any further calls (`settled_run`).
-/

namespace ClientTelemetry

open List

namespace TransmitProfiles

variable {lib : JsonLibrary} {s : TransmitProfiles} {newProfiles : List TransmitProfileRules}
  {calls : List ProfileCall} {call : ProfileCall}

/-- No profile was installed yet. -/
structure Blank (s : TransmitProfiles) : Prop where
  profiles : s.profiles.entries = []
  isTimerUpdated : s.isTimerUpdated = true

/-- **The profiles are installed and the rule is selected.** -/
structure Settled (s : TransmitProfiles) : Prop where
  builtIn : ∀ name ∈ defaultProfileNames, name ∈ s.profiles.keys
  rule : ∃ profile, s.profiles.find? s.currProfileName = some profile ∧
    s.currRule =
      (profile.rules.findIdx? fun rule => rule.fits s.currNetCost s.currPowState).getD 0

theorem Settled.entries_ne_nil (hs : s.Settled) : s.profiles.entries ≠ [] := by
  obtain ⟨profile, hfind, -⟩ := hs.rule
  exact ne_nil_of_mem (OrdMap.find?_eq_some.1 hfind)

theorem profiles_updateStates (netCost : NetworkCost) (powState : PowerSource) :
    (s.updateStates netCost powState).2.profiles = s.profiles := by
  unfold updateStates
  split <;> rfl

/-- The current profile is installed, and `updateStates` selects. -/
theorem settled_updateStates (hbuiltIn : ∀ name ∈ defaultProfileNames, name ∈ s.profiles.keys)
    (hname : s.currProfileName ∈ s.profiles.keys) (netCost : NetworkCost) (powState : PowerSource) :
    (s.updateStates netCost powState).2.Settled ∧
      (s.updateStates netCost powState).2.isTimerUpdated = true := by
  obtain ⟨profile, hfind⟩ := OrdMap.mem_keys_iff_find?.1 hname
  simp only [updateStates, hfind, and_true]
  exact ⟨hbuiltIn, profile, hfind, rfl⟩

theorem profiles_setProfile {profileName : String} :
    (s.setProfile profileName).2.profiles = s.ensureDefaultProfiles.profiles :=
  profiles_updateStates _ _

theorem defaultProfile_mem : defaultProfile ∈ defaultProfileNames := mem_cons_self

theorem mem_keys_removeCustomProfiles {name : String} :
    name ∈ s.removeCustomProfiles.profiles.keys ↔
      name ∈ s.profiles.keys ∧ name ∈ defaultProfileNames := by
  simp only [removeCustomProfiles, OrdMap.mem_keys, OrdMap.mem_filter, decide_eq_true_eq]
  exact exists_and_right

theorem profiles_updateProfiles : (s.updateProfiles newProfiles).profiles =
      s.removeCustomProfiles.profiles.insertAll TransmitProfileRules.name newProfiles :=
  profiles_updateStates _ _

/-- **An update selects a rule**, if the built-in profiles are installed
or among the new ones. -/
theorem settled_updateProfiles (h : ∀ name ∈ defaultProfileNames,
      name ∈ s.profiles.keys ∨ name ∈ newProfiles.map TransmitProfileRules.name) :
    (s.updateProfiles newProfiles).Settled ∧
      (s.updateProfiles newProfiles).isTimerUpdated = true := by
  have hbuiltIn : ∀ name ∈ defaultProfileNames, name ∈
      (s.removeCustomProfiles.profiles.insertAll TransmitProfileRules.name newProfiles).keys := by
    intro name hname
    rw [OrdMap.mem_keys_insertAll, mem_keys_removeCustomProfiles]
    exact (h name hname).imp_left fun hmem => ⟨hmem, hname⟩
  refine settled_updateStates hbuiltIn ?_ _ _
  dsimp only
  split_ifs with hfound
  · exact OrdMap.mem_keys_iff_find?.2 (Option.isSome_iff_exists.1 hfound)
  · exact hbuiltIn defaultProfile defaultProfile_mem

theorem settled_reset (s : TransmitProfiles) : s.reset.Settled ∧ s.reset.isTimerUpdated = true :=
  settled_updateProfiles fun _ hname => Or.inr hname

/-- The built-in profiles are installed on first use. -/
theorem ensureDefaultProfiles_cases (h : s.Blank ∨ s.Settled) : s.ensureDefaultProfiles.Settled ∧
      (s.ensureDefaultProfiles.isTimerUpdated = true ∨ s.ensureDefaultProfiles = s) := by
  rcases h with hblank | hs
  · rw [ensureDefaultProfiles, if_pos hblank.profiles]
    exact ⟨(settled_reset s).1, Or.inl (settled_reset s).2⟩
  · rw [ensureDefaultProfiles, if_neg hs.entries_ne_nil]
    exact ⟨hs, Or.inr rfl⟩

theorem Settled.updateProfiles (hs : s.Settled) : (s.updateProfiles newProfiles).Settled ∧
      (s.updateProfiles newProfiles).isTimerUpdated = true :=
  settled_updateProfiles fun name hname => Or.inl (hs.builtIn name hname)

/-! ## One call -/

/-- What a call leaves: it has selected a rule and asks for the timers to
be read, or has changed nothing. -/
def Selects (s s' : TransmitProfiles) : Prop :=
  s'.Settled ∧ (s'.isTimerUpdated = true ∨ s' = s)

section

variable (h : s.Blank ∨ s.Settled)
include h

theorem selects_loadText (text : String) :
    Selects s (loadText lib s text).2 := by
  have hensure := ensureDefaultProfiles_cases h
  unfold loadText
  split
  · exact hensure
  · exact ⟨hensure.1.updateProfiles.1, Or.inl hensure.1.updateProfiles.2⟩

theorem selects_loadProfiles
    (profileCandidates : List TransmitProfileRules) :
    Selects s (s.loadProfiles profileCandidates).2 := by
  have hensure := ensureDefaultProfiles_cases h
  unfold loadProfiles
  split_ifs
  · exact hensure
  · exact ⟨hensure.1.updateProfiles.1, Or.inl hensure.1.updateProfiles.2⟩
  · exact hensure

theorem selects_setProfile (profileName : String) :
    Selects s (s.setProfile profileName).2 := by
  have hs := (ensureDefaultProfiles_cases h).1
  have hset : (s.setProfile profileName).2.Settled ∧
      (s.setProfile profileName).2.isTimerUpdated = true := by
    unfold setProfile
    refine settled_updateStates ?_ ?_ _ _
    · exact hs.builtIn
    · dsimp only
      split_ifs with hfound
      · exact OrdMap.mem_keys_iff_find?.2 (Option.isSome_iff_exists.1 hfound)
      · exact hs.builtIn defaultProfile defaultProfile_mem
  exact ⟨hset.1, Or.inl hset.2⟩

end

theorem selects_updateStates (hs : s.Settled) (netCost : NetworkCost) (powState : PowerSource) :
    Selects s (s.updateStates netCost powState).2 := by
  obtain ⟨profile, hfind, -⟩ := hs.rule
  have hset := settled_updateStates hs.builtIn (OrdMap.mem_keys_iff_find?.2 ⟨profile, hfind⟩)
    netCost powState
  exact ⟨hset.1, Or.inl hset.2⟩

theorem blank_updateStates (h : s.Blank) (netCost : NetworkCost) (powState : PowerSource) :
    (s.updateStates netCost powState).2.Blank := by
  have hnone : s.profiles.find? s.currProfileName = none := by
    simp [OrdMap.find?, h.profiles]
  simp only [updateStates, hnone]
  exact ⟨h.profiles, h.isTimerUpdated⟩

theorem settled_getTimers (h : s.Blank ∨ s.Settled) : s.getTimers.2.Settled := by
  have hs := (ensureDefaultProfiles_cases h).1
  unfold getTimers
  dsimp only
  split
  · exact hs
  · exact ⟨hs.builtIn, hs.rule⟩

/-- A call other than `updateStates`. -/
def TouchesProfiles (call : ProfileCall) : Prop :=
  ∀ netCost powState, call ≠ .updateStates netCost powState

/-- **One call.** -/
theorem step_cases (h : s.Blank ∨ s.Settled) (call : ProfileCall) :
    ((s.step lib call).Blank ∧ ¬ TouchesProfiles call ∧ s.Blank) ∨ (s.step lib call).Settled ∧
        (call = .getTimers ∨ (s.step lib call).isTimerUpdated = true ∨ s.step lib call = s) := by
  cases call with
  | loadText text =>
    have hsel := @selects_loadText lib s h text
    exact Or.inr ⟨hsel.1, Or.inr hsel.2⟩
  | loadProfiles profileCandidates =>
    have hsel := selects_loadProfiles h profileCandidates
    exact Or.inr ⟨hsel.1, Or.inr hsel.2⟩
  | setProfile profileName =>
    have hsel := selects_setProfile h profileName
    exact Or.inr ⟨hsel.1, Or.inr hsel.2⟩
  | setDefaultProfile profile =>
    have hsel := selects_setProfile h profile.profileName
    exact Or.inr ⟨hsel.1, Or.inr hsel.2⟩
  | reset => exact Or.inr ⟨(settled_reset s).1, Or.inr (Or.inl (settled_reset s).2)⟩
  | updateStates netCost powState =>
    rcases h with hblank | hs
    · exact Or.inl ⟨blank_updateStates hblank netCost powState,
        (fun htouches => htouches netCost powState rfl), hblank⟩
    · have hsel := selects_updateStates hs netCost powState
      exact Or.inr ⟨hsel.1, Or.inr hsel.2⟩
  | getTimers => exact Or.inr ⟨settled_getTimers h, Or.inl rfl⟩

/-! ## Runs -/

theorem blank_or_settled_run (calls : List ProfileCall) :
    (run (step lib) {} calls).Blank ∨ (run (step lib) {} calls).Settled := by
  have hinit : ({} : TransmitProfiles).Blank := ⟨rfl, rfl⟩
  refine @run_preserves _ _ (step lib) {} (fun s => s.Blank ∨ s.Settled) (fun s call h => ?_)
    (Or.inl hinit) calls
  rcases step_cases h call with ⟨hblank, -⟩ | ⟨hs, -⟩
  · exact Or.inl hblank
  · exact Or.inr hs

/-- **A call other than `updateStates` settles the state for good.** -/
theorem settled_run (h : ∃ call ∈ calls, TouchesProfiles call) :
    (run (step lib) {} calls).Settled := by
  obtain ⟨call, hmem, htouches⟩ := h
  obtain ⟨pre, post, rfl⟩ := append_of_mem hmem
  rw [run_append, run_cons]
  refine run_preserves (fun s call hs => ?_) ?_ post
  · rcases step_cases (Or.inr hs) call with ⟨-, -, hblank⟩ | ⟨hs, -⟩
    · exact absurd hblank.profiles hs.entries_ne_nil
    · exact hs
  · rcases step_cases (blank_or_settled_run pre) call with ⟨-, hnot, -⟩ | ⟨hs, -⟩
    · exact absurd htouches hnot
    · exact hs

/-! ## The state of the device -/

/-- The state of the device that the calls gave last, or any. -/
def deviceState (calls : List ProfileCall) : NetworkCost × PowerSource :=
  calls.foldl (fun device call =>
    match call with
    | .updateStates netCost powState => (netCost, powState)
    | _ => device) (.any, .any)

/-- The state of the device that the profiles keep. -/
def device (s : TransmitProfiles) : NetworkCost × PowerSource := (s.currNetCost, s.currPowState)

theorem device_updateStates (netCost : NetworkCost) (powState : PowerSource) :
    (s.updateStates netCost powState).2.device = (netCost, powState) := by
  unfold updateStates
  split <;> rfl

theorem device_ensureDefaultProfiles : s.ensureDefaultProfiles.device = s.device := by
  unfold ensureDefaultProfiles
  split_ifs
  · exact device_updateStates _ _
  · rfl

theorem device_updateProfiles :
    (s.ensureDefaultProfiles.updateProfiles newProfiles).device = s.device :=
  (device_updateStates _ _).trans device_ensureDefaultProfiles

/-- Only `updateStates` changes the state of the device. -/
theorem device_step (htouches : TouchesProfiles call) : (s.step lib call).device = s.device := by
  cases call with
  | loadText text =>
    rw [step, loadText]
    split
    · exact device_ensureDefaultProfiles
    · exact device_updateProfiles
  | loadProfiles profileCandidates =>
    rw [step, loadProfiles]
    split_ifs
    · exact device_ensureDefaultProfiles
    · exact device_updateProfiles
    · exact device_ensureDefaultProfiles
  | setProfile profileName | setDefaultProfile profile =>
    exact (device_updateStates _ _).trans device_ensureDefaultProfiles
  | reset => exact device_updateStates _ _
  | updateStates netCost powState => exact absurd rfl (htouches netCost powState)
  | getTimers =>
    rw [step, getTimers]
    split <;> exact device_ensureDefaultProfiles

/-- **The profiles keep the state of the device that was given last.** -/
theorem device_run (calls : List ProfileCall) :
    (run (step lib) {} calls).device = deviceState calls := by
  induction calls using List.reverseRecOn with
  | nil => rfl
  | append_singleton calls call ih =>
    rw [run_append, deviceState, foldl_append, ← deviceState, ← ih]
    cases call with
    | updateStates netCost powState => exact device_updateStates netCost powState
    | _ =>
      rw [run_cons, run_nil, foldl_cons, foldl_nil, device_step fun _ _ h => ProfileCall.noConfusion h]

/-! ## The rule that is selected -/

/-- A profile can be used: it has a rule, and each rule has three
timers. -/
def Usable (profile : TransmitProfileRules) : Prop :=
  profile.rules ≠ [] ∧ ∀ rule ∈ profile.rules, rule.timers.length = 3

/-- A text brings only profiles that can be used. A vector is checked by
`load` itself. -/
def LoadsUsable (lib : JsonLibrary) : ProfileCall → Prop
  | .loadText text => ∀ newProfiles, readText lib text = .read newProfiles →
    ∀ profile ∈ newProfiles, Usable profile
  | _ => True

/-- All profiles have a rule. -/
def HasRules (s : TransmitProfiles) : Prop := ∀ e ∈ s.profiles.entries, e.2.rules ≠ []

section

variable (h : s.HasRules)
include h

theorem HasRules.updateProfiles (hnew : ∀ profile ∈ newProfiles,
    profile.rules ≠ []) : (s.updateProfiles newProfiles).HasRules := by
  intro e he
  rw [profiles_updateProfiles] at he
  rcases OrdMap.mem_insertAll_imp he with he | ⟨profile, hprofile, rfl⟩
  · exact h e (OrdMap.mem_filter.1 he).1
  · exact hnew profile hprofile

theorem HasRules.reset : s.reset.HasRules := by
  refine h.updateProfiles fun profile hprofile => ?_
  simp only [builtInProfiles, mem_cons, not_mem_nil, or_false] at hprofile
  rcases hprofile with rfl | rfl | rfl <;> exact cons_ne_nil _ _

theorem HasRules.ensureDefaultProfiles : s.ensureDefaultProfiles.HasRules := by
  unfold TransmitProfiles.ensureDefaultProfiles
  split_ifs
  · exact h.reset
  · exact h

theorem HasRules.step (hload : LoadsUsable lib call) :
    (s.step lib call).HasRules := by
  have hensure := h.ensureDefaultProfiles
  cases call with
  | loadText text =>
    rw [TransmitProfiles.step, loadText]
    rcases hread : readText lib text with newProfiles | _
    · exact hensure.updateProfiles fun profile hprofile => (hload _ hread profile hprofile).1
    · exact hensure
  | loadProfiles profileCandidates =>
    rw [TransmitProfiles.step, loadProfiles]
    split_ifs with hmany hvalid
    · exact hensure
    · refine hensure.updateProfiles fun profile hprofile => ?_
      have hone := all_eq_true.1 hvalid profile hprofile
      simp only [TransmitProfileRules.isValid, Bool.and_eq_true, Bool.not_eq_true',
        isEmpty_eq_false_iff] at hone
      exact hone.1.2
    · exact hensure
  | setProfile profileName | setDefaultProfile profile =>
    exact fun e he => hensure e (profiles_setProfile ▸ he)
  | reset => exact h.reset
  | updateStates netCost powState => exact fun e he => h e (profiles_updateStates _ _ ▸ he)
  | getTimers =>
    rw [TransmitProfiles.step, getTimers]
    split <;> exact hensure

end

theorem hasRules_run (hload : ∀ call ∈ calls, LoadsUsable lib call) :
    (run (TransmitProfiles.step lib) {} calls).HasRules := by
  induction calls using List.reverseRecOn with
  | nil => exact fun e he => nomatch he
  | append_singleton calls call ih =>
    rw [run_append]
    refine (ih fun c hc => hload c (mem_append_left _ hc)).step (hload call ?_)
    exact mem_append_right _ (mem_singleton_self call)

/-- **The rule is selected as it should be**: the first rule of the current
profile that fits the device, or the first rule of all if none fits. -/
structure RuleSelected (s : TransmitProfiles) (device : NetworkCost × PowerSource) : Prop where
  builtIn : ∀ p : TransmitProfile, (s.profiles.find? p.profileName).isSome
  rule : ∃ profile rule, s.profiles.find? s.currProfileName = some profile ∧
    profile.rules[s.currRule]? = some rule ∧
    ((rule.fits device.1 device.2 = true ∧
        ∀ i earlier, i < s.currRule → profile.rules[i]? = some earlier →
          earlier.fits device.1 device.2 = false) ∨
      (s.currRule = 0 ∧ ∀ other ∈ profile.rules, other.fits device.1 device.2 = false))

theorem Settled.ruleSelected (hs : s.Settled) (hrules : s.HasRules) : s.RuleSelected s.device := by
  refine ⟨fun p => ?_, ?_⟩
  · rw [Option.isSome_iff_exists]
    refine OrdMap.mem_keys_iff_find?.1 (hs.builtIn _ ?_)
    cases p <;> simp [defaultProfileNames]
  · obtain ⟨profile, hfind, hrule⟩ := hs.rule
    rcases hfound : profile.rules.findIdx?
        (fun rule => rule.fits s.currNetCost s.currPowState) with _ | i
    · rw [hfound, Option.getD_none] at hrule
      rw [findIdx?_eq_none_iff] at hfound
      obtain ⟨rule, rest, hcons⟩ :=
        exists_cons_of_ne_nil (hrules _ (OrdMap.find?_eq_some.1 hfind))
      refine ⟨profile, rule, hfind, ?_, Or.inr ⟨hrule, hfound⟩⟩
      rw [hrule, hcons]
      rfl
    · rw [hfound, Option.getD_some] at hrule
      obtain ⟨hlt, hfits, hearlier⟩ := findIdx?_eq_some_iff_getElem.1 hfound
      refine ⟨profile, profile.rules[i], hfind, ?_, Or.inl ⟨hfits, ?_⟩⟩
      · rw [hrule]
        exact getElem?_eq_getElem hlt
      · intro k earlier hk hget
        obtain ⟨hklt, rfl⟩ := List.getElem?_eq_some_iff.1 hget
        exact Bool.eq_false_of_not_eq_true (hearlier k (hrule ▸ hk))

/-! ## When the timers are to be read again -/

/-- The profiles, the current one and the state of the device. -/
def settings (s : TransmitProfiles) :
    OrdMap String TransmitProfileRules × String × NetworkCost × PowerSource :=
  (s.profiles, s.currProfileName, s.currNetCost, s.currPowState)

/-- **`getTimers` ran after the last change** of the settings. -/
def TimersReadSince (lib : JsonLibrary) (calls : List ProfileCall) : Prop :=
  ∃ pre post, calls = pre ++ .getTimers :: post ∧
    ∀ mid, mid <+: post →
      (run (step lib) {} (pre ++ .getTimers :: mid)).settings =
        (run (step lib) {} (pre ++ [.getTimers])).settings

theorem timersReadSince_append (h : TimersReadSince lib calls)
    (hsame : (run (step lib) {} (calls ++ [call])).settings =
      (run (step lib) {} calls).settings) : TimersReadSince lib (calls ++ [call]) := by
  obtain ⟨pre, post, rfl, hpost⟩ := h
  refine ⟨pre, post ++ [call], by simp, fun mid hmid => ?_⟩
  rcases prefix_concat_iff.1 hmid with rfl | hmid
  · rw [← hpost post (prefix_refl post), ← hsame]
    simp
  · exact hpost mid hmid

/-- **The timers are to be read again unless they were read since the last
change.** -/
theorem timers_required_or_read (calls : List ProfileCall) :
    (run (step lib) {} calls).isTimerUpdated = true ∨ TimersReadSince lib calls := by
  induction calls using List.reverseRecOn with
  | nil => exact Or.inl rfl
  | append_singleton calls call ih =>
    have hstep : run (step lib) {} (calls ++ [call]) = (run (step lib) {} calls).step lib call := by
      rw [run_append]
      rfl
    rcases @step_cases lib _ (blank_or_settled_run calls) call with
      ⟨hblank, -⟩ | ⟨-, rfl | hupdated | hsame⟩
    · exact Or.inl (hstep ▸ hblank.isTimerUpdated)
    · refine Or.inr ⟨calls, [], rfl, fun mid hmid => ?_⟩
      rw [prefix_nil.1 hmid]
    · exact Or.inl (hstep ▸ hupdated)
    · rw [hstep, hsame]
      refine ih.imp_right fun hread => timersReadSince_append hread ?_
      rw [hstep, hsame]

/-- **The selection of a rule is kept** by every sequence of calls with a
call other than `updateStates` in it. The rule is selected for the state
of the device that was given last. -/
theorem rule_selection_kept (lib : JsonLibrary) {calls : List ProfileCall}
    (hload : ∀ call ∈ calls, LoadsUsable lib call) (hcalls : ∃ call ∈ calls, TouchesProfiles call) :
    (run (step lib) {} calls).RuleSelected (deviceState calls) ∧
      ((run (step lib) {} calls).isTimerUpdateRequired = true ∨ TimersReadSince lib calls) := by
  have hselected : (run (step lib) {} calls).RuleSelected _ :=
    (settled_run hcalls).ruleSelected (hasRules_run hload)
  rw [device_run] at hselected
  exact ⟨hselected, timers_required_or_read calls⟩

/-- A profile of the caller is loaded and set, and then the device is
plugged in. -/
def customCalls : List ProfileCall :=
  [.updateStates .metered .battery,
    .loadProfiles [⟨"CUSTOM", [⟨.metered, .battery, [8, 4, 2]⟩, ⟨.metered, .charging, [4, 2, 1]⟩]⟩],
    .setProfile "CUSTOM", .getTimers, .updateStates .metered .charging]

theorem rule_selection_kept_custom :
    ((run (step ⟨fun _ => none, fun _ => 0⟩) {} customCalls).RuleSelected (.metered, .charging) ∧
      ((run (step ⟨fun _ => none, fun _ => 0⟩) {} customCalls).isTimerUpdateRequired = true ∨
        TimersReadSince ⟨fun _ => none, fun _ => 0⟩ customCalls)) ∧
    (run (step ⟨fun _ => none, fun _ => 0⟩) {} customCalls).currRule = 1 :=
  ⟨rule_selection_kept _
    (by simp [customCalls, LoadsUsable])
    ⟨.getTimers, by simp [customCalls], fun _ _ h => nomatch h⟩, by decide +kernel⟩

end TransmitProfiles

end ClientTelemetry
