import ClientTelemetry.Api.Model.DataViewerCollection
import ClientTelemetry.Common.Run
/-!
# Viewers are registered by their names

No two viewers of a collection have the same name, as a text. A viewer is
unregistered by the address of its name, so that the name is enough only
where the caller has the very pointer that `GetName` returns.
-/

namespace ClientTelemetry

open List

namespace DataViewerCollection

variable {ν : Type*} {getName : ν → CString} {viewers : List ν} {name : CString}

/-- **The names are pairwise different.** -/
def Named (getName : ν → CString) (viewers : List ν) : Prop :=
  (viewers.map fun viewer => (getName viewer).text).Nodup

/-- **A viewer is unregistered by its name**: if and only if one of this
name is registered, and that one goes. -/
def UnregistersByName (getName : ν → CString) (viewers : List ν) (name : CString) : Prop :=
  ((unregisterViewer getName viewers (some name)).1 = .ok () ↔
    isViewerRegistered getName viewers (some name) = .ok true) ∧
  ((unregisterViewer getName viewers (some name)).1 = .ok () →
    (unregisterViewer getName viewers (some name)).2 =
      viewers.filter fun viewer => (getName viewer).text ≠ name.text)

theorem isViewerRegistered_iff : isViewerRegistered getName viewers (some name) = .ok true ↔
    ∃ viewer ∈ viewers, (getName viewer).text = name.text := by
  simp [isViewerRegistered, getViewerFromCollection, Except.map]

theorem unregisterViewer_ok_iff : (unregisterViewer getName viewers (some name)).1 = .ok () ↔
    ∃ viewer ∈ viewers, (getName viewer).address = name.address := by
  rw [unregisterViewer]
  split_ifs with h
  · simpa using h
  · simpa using h

theorem Named.registerViewer (h : Named getName viewers) (dataViewer : Option ν) :
    Named getName (registerViewer getName viewers dataViewer).2 := by
  cases dataViewer with
  | none => exact h
  | some dataViewer =>
    simp only [DataViewerCollection.registerViewer, getViewerFromCollection]
    cases hfind : viewers.find? fun viewer => (getName viewer).text = (getName dataViewer).text with
    | some viewer => exact h
    | none =>
      rw [Named, map_append, nodup_append]
      refine ⟨h, nodup_singleton _, fun text htext other hother heq => ?_⟩
      obtain ⟨viewer, hviewer, rfl⟩ := mem_map.1 htext
      rw [mem_singleton.1 hother] at heq
      simpa using find?_eq_none.1 hfind viewer hviewer (decide_eq_true heq)

/-- **No call makes two names the same.** -/
theorem Named.step (h : Named getName viewers) (c : ViewerCall ν) :
    Named getName (step getName viewers c) := by
  cases c with
  | registerViewer dataViewer => exact h.registerViewer dataViewer
  | unregisterAllViewers => exact nodup_nil
  | unregisterViewer viewerName =>
    cases viewerName with
    | none => exact h
    | some viewerName =>
      simp only [DataViewerCollection.step, call, unregisterViewer]
      split_ifs
      · exact h.sublist (eraseP_sublist.map _)
      · exact h

/-- **A call that throws changes nothing.** -/
theorem step_of_error {c : ViewerCall ν} {message : String}
    (h : (call getName viewers c).1 = .error message) : step getName viewers c = viewers := by
  unfold step
  cases c with
  | registerViewer dataViewer =>
    cases dataViewer with
    | none => rfl
    | some dataViewer =>
      simp only [call, registerViewer, getViewerFromCollection] at h ⊢
      split at h
      · rfl
      · rfl
      · cases h
  | unregisterAllViewers => cases h
  | unregisterViewer viewerName =>
    cases viewerName with
    | none => rfl
    | some viewerName =>
      simp only [call, unregisterViewer] at h ⊢
      split_ifs at h ⊢
      rfl

/-- The viewer at the address is the one of the name. -/
theorem eraseP_eq_filter (h : Named getName viewers) (hsame : ∀ viewer ∈ viewers,
      (getName viewer).address = name.address ↔ (getName viewer).text = name.text) :
    (viewers.eraseP fun viewer => (getName viewer).address = name.address) =
      viewers.filter fun viewer => (getName viewer).text ≠ name.text := by
  induction viewers with
  | nil => rfl
  | cons viewer viewers ih =>
    obtain ⟨hnew, hrest⟩ := nodup_cons.1 h
    have hviewer := hsame viewer mem_cons_self
    have hsame := fun other hother => hsame other (mem_cons_of_mem _ hother)
    by_cases htext : (getName viewer).text = name.text
    · have hothers : ∀ other ∈ viewers, (getName other).text ≠ name.text := fun other hother heq =>
        hnew (mem_map.2 ⟨other, hother, heq.trans htext.symm⟩)
      rw [eraseP_cons_of_pos (by simpa using hviewer.2 htext),
        filter_cons_of_neg (by simpa using htext)]
      exact (filter_eq_self.2 fun other hother => by simpa using hothers other hother).symm
    · rw [eraseP_cons_of_neg (by simpa using mt hviewer.1 htext), ih hrest hsame,
        filter_cons_of_pos (by simpa using htext)]

/-- **When a viewer is unregistered by its name**: exactly if a viewer of
this name has it at the address of the argument. -/
theorem unregistersByName_iff (h : Named getName viewers) (hmemory : ∀ viewer ∈ viewers,
      (getName viewer).address = name.address → (getName viewer).text = name.text) :
    UnregistersByName getName viewers name ↔ ∀ viewer ∈ viewers, (getName viewer).text = name.text →
        (getName viewer).address = name.address := by
  rw [UnregistersByName, unregisterViewer_ok_iff, isViewerRegistered_iff]
  constructor
  · rintro ⟨hiff, -⟩ viewer hviewer htext
    obtain ⟨other, hother, haddress⟩ := hiff.2 ⟨viewer, hviewer, htext⟩
    have heq := inj_on_of_nodup_map h hother hviewer
      ((hmemory other hother haddress).trans htext.symm)
    exact heq ▸ haddress
  · intro hsame
    have hboth := fun viewer hviewer =>
      Iff.intro (hmemory viewer hviewer) (hsame viewer hviewer)
    refine ⟨exists_congr fun viewer => and_congr_right fun hviewer => hboth viewer hviewer,
      fun hfound => ?_⟩
    have hany : viewers.any (fun viewer => (getName viewer).address = name.address) = true := by
      simpa using hfound
    rw [unregisterViewer, if_pos hany]
    exact eraseP_eq_filter h hboth

/-- **Viewer registration is by name**, after every sequence of calls: the
names differ, a call that throws changes nothing, and a viewer is
unregistered by its name exactly if the argument points to where that
viewer has it. Equal pointers point to equal texts (`hmemory`). -/
theorem registration_by_name (getName : ν → CString) (calls : List (ViewerCall ν)) (name : CString)
    (hmemory : ∀ viewer ∈ run (step getName) [] calls,
      (getName viewer).address = name.address → (getName viewer).text = name.text) :
    Named getName (run (step getName) [] calls) ∧
    (∀ c message, (call getName (run (step getName) [] calls) c).1 = .error message →
      step getName (run (step getName) [] calls) c = run (step getName) [] calls) ∧
    (UnregistersByName getName (run (step getName) [] calls) name ↔
      ∀ viewer ∈ run (step getName) [] calls, (getName viewer).text = name.text →
        (getName viewer).address = name.address) := by
  have hnone : Named getName [] := nodup_nil
  have hnamed := run_preserves (fun _ c h => h.step c) hnone calls
  exact ⟨hnamed, fun c message h => step_of_error h, unregistersByName_iff hnamed hmemory⟩

/-- Three viewers are registered, one of them twice, and one is
unregistered. -/
def threeViewers : List (ViewerCall CString) :=
  [.registerViewer (some ⟨1, "viewer"⟩), .registerViewer (some ⟨2, "gone"⟩),
    .registerViewer (some ⟨3, "other"⟩), .registerViewer (some ⟨1, "viewer"⟩),
    .unregisterViewer (some ⟨2, "gone"⟩)]

theorem registration_by_name_same_pointer :
    run (step id) [] threeViewers = [⟨1, "viewer"⟩, ⟨3, "other"⟩] ∧
    UnregistersByName id (run (step id) [] threeViewers) ⟨3, "other"⟩ :=
  ⟨rfl, (registration_by_name id threeViewers ⟨3, "other"⟩ (by decide)).2.2.2 (by decide)⟩

/-- **A copy of the name does not do**: the viewer is registered, and
stays. -/
theorem copied_name_not_found :
    isViewerRegistered id (run (step id) [] [.registerViewer (some ⟨1, "viewer"⟩)])
      (some ⟨2, "viewer"⟩) = .ok true ∧
    unregisterViewer id (run (step id) [] [.registerViewer (some ⟨1, "viewer"⟩)])
      (some ⟨2, "viewer"⟩) =
        (.error "Viewer: 'viewer' is not currently registered", [⟨1, "viewer"⟩]) :=
  ⟨rfl, rfl⟩

end DataViewerCollection

end ClientTelemetry
