import ClientTelemetry.Common.Run
import ClientTelemetry.System.Helpers.Retrieval
import ClientTelemetry.System.Model.TelemetrySystem
/-!
# Every upload is closed once

The history of a context is short: it is added, its records are passed to
one delete or release, and a terminal handler closes it; or it is added
and closed at once, with nothing packaged. Here that is an invariant of
every run of the routes. `Ledger` is what the argument needs of the
state: the active uploads, the requests in flight, and the trace. A
context is in flight from `sendRequest` to its response; while a step of
the system lasts, one context may be on its way (`OnItsWay`).

The one disagreement between the storage and the packager is excluded by
`RetrievesSafely`. Without a RAM queue, a first record over the upload
limit is packaged and the retrieval fails all the same: the upload is
closed as one with nothing to send (`oversize_closed_as_nothing`).
-/

namespace ClientTelemetry

variable {ids : List StorageRecordId}

open StorageObserver List

/-! ## What is asked of a history -/

/-- The ids a call deletes or releases. -/
def HandlerOp.settledIds : HandlerOp → List StorageRecordId
  | deleteRecords ids _ _ => ids
  | releaseRecords ids _ _ _ => ids
  | _ => []

namespace RouteEvent

/-- The ids an event passes to a delete or a release: those the call it
stands for was made with. -/
def passed : RouteEvent → List StorageRecordId
  | called _ op => op.settledIds
  | _ => []

/-- The call on the storage an event stands for. -/
def call? : RouteEvent → Option (ℕ × HandlerOp)
  | called now op => some (now, op)
  | _ => none

/-- The event is a terminal handler's. -/
def closes : RouteEvent → Bool
  | closed _ _ => true
  | _ => false

end RouteEvent

/-- **Closed exactly once.** One terminal handler ran, and it came last.
It was the one for nothing to upload exactly when nothing was packaged; if
it was another, each packaged id had been passed exactly once to a delete
or a release. -/
def ClosedOnce (es : List RouteEvent) : Prop :=
  ∃ before handler packaged, es = before ++ [.closed handler packaged] ∧
    (∀ e ∈ before, e.closes = false) ∧ (handler = .nothingToUpload ↔ packaged = []) ∧
    (handler ≠ .nothingToUpload → ∀ i ∈ packaged, (before.flatMap RouteEvent.passed).count i = 1)

theorem closedOnce_nothing : ClosedOnce [.added, .closed .nothingToUpload []] := by
  refine ⟨[.added], .nothingToUpload, [], rfl, ?_, by simp, fun h => absurd rfl h⟩
  intro e he
  obtain rfl := mem_singleton.1 he
  rfl

/-- With something packaged, that was the wrong handler. -/
theorem not_closedOnce_nothing (hne : ids ≠ []) :
    ¬ ClosedOnce [.added, .closed .nothingToUpload ids] := by
  rintro ⟨before, handler, packaged, heq, -, hnothing, -⟩
  have hlast : some (RouteEvent.closed .nothingToUpload ids) = some (.closed handler packaged) := by
    have := congrArg List.getLast? heq
    rwa [getLast?_concat] at this
  obtain ⟨rfl, rfl⟩ : Terminal.nothingToUpload = handler ∧ ids = packaged := by
    simpa using hlast
  exact hne (hnothing.1 rfl)

theorem closedOnce_settled {now : ℕ} {op : HandlerOp} {handler : Terminal}
    (hhandler : handler ≠ .nothingToUpload) (hids : op.settledIds = ids) (hne : ids ≠ [])
    (hnodup : ids.Nodup) : ClosedOnce [.added, .called now op, .closed handler ids] := by
  refine ⟨[.added, .called now op], handler, ids, rfl, ?_, iff_of_false hhandler hne, ?_⟩
  · intro e he
    rcases mem_pair.1 he with rfl | rfl <;> rfl
  · intro _ i hi
    have hpassed : [.added, .called now op].flatMap RouteEvent.passed = ids := by
      show [] ++ (op.settledIds ++ []) = ids
      rw [hids, append_nil, nil_append]
    rw [hpassed]
    exact count_eq_one_of_mem hnodup hi

/-! ## The ledger -/

/-- What of the state tells the uploads. -/
structure Ledger where
  active : Finset ContextId
  waiting : List (ContextId × EventsUploadContext)
  next : ContextId
  trace : List (Option ContextId × RouteEvent)

namespace Ledger

variable {L : Ledger} {c c' : ContextId} {ctx : EventsUploadContext} {e : RouteEvent}

/-- The history of a context. -/
def eventsOf (L : Ledger) (c : ContextId) : List RouteEvent :=
  (L.trace.filter fun e => e.1 = some c).map Prod.snd

/-- The contexts with a request in flight. -/
def inFlight (L : Ledger) : List ContextId := L.waiting.map Prod.fst

def note (L : Ledger) (c : Option ContextId) (e : RouteEvent) : Ledger :=
  { L with trace := L.trace ++ [(c, e)] }

def close (L : Ledger) (c : ContextId) (handler : Terminal) (ids : List StorageRecordId) : Ledger :=
  { L with active := L.active.erase c }.note c (.closed handler ids)

def add (L : Ledger) : Ledger :=
  { L with active := insert L.next L.active, next := L.next + 1 }.note L.next .added

def send (L : Ledger) (c : ContextId) (ctx : EventsUploadContext) : Ledger :=
  { L with waiting := L.waiting ++ [(c, ctx)] }

def answered (L : Ledger) (c : ContextId) : Ledger :=
  { L with waiting := L.waiting.filter fun x => x.1 ≠ c }

@[simp] theorem eventsOf_note_self :
    (L.note c e).eventsOf c = L.eventsOf c ++ [e] := by
  simp [eventsOf, note]

theorem eventsOf_note_of_ne {x : Option ContextId} (hne : x ≠ some c') :
    (L.note x e).eventsOf c' = L.eventsOf c' := by
  simp [eventsOf, note, hne]

/-- **The invariant**, but for the contexts left out. Each context that
was created has a request in flight, with records packaged, or is closed
and no longer active. -/
structure SoundBut (L : Ledger) (left : ContextId → Prop) : Prop where
  once : L.inFlight.Nodup
  waiting : ∀ x ∈ L.waiting, x.1 ∈ L.active ∧ L.eventsOf x.1 = [.added] ∧ x.2.recordIds ≠ []
  active : ∀ c ∈ L.active, c < L.next
  noted : ∀ e ∈ L.trace, ∀ c, e.1 = some c → c < L.next
  closed : ∀ c < L.next, ¬ left c → c ∉ L.inFlight → c ∉ L.active ∧ ClosedOnce (L.eventsOf c)

/-- The invariant between two steps. -/
def Sound (L : Ledger) : Prop := L.SoundBut fun _ => False

/-- **A context on its way through the routes**, with its history. -/
structure OnItsWay (L : Ledger) (c : ContextId) (es : List RouteEvent) : Prop where
  others : L.SoundBut fun c' => c' = c
  created : c < L.next
  notInFlight : c ∉ L.inFlight
  isActive : c ∈ L.active
  history : L.eventsOf c = es

theorem eventsOf_next (h : L.Sound) : L.eventsOf L.next = [] := by
  unfold eventsOf
  rw [filter_eq_nil_iff.2, map_nil]
  intro e he heq
  exact (h.noted e he L.next (by simpa using heq)).ne rfl

/-! ### One context at a time -/

theorem Sound.add (h : L.Sound) : L.add.OnItsWay L.next [.added] := by
  have hfresh : ∀ c, c < L.next → c ≠ L.next := fun c hc => hc.ne
  have hevents : ∀ c, c ≠ L.next → L.add.eventsOf c = L.eventsOf c :=
    fun c hc => eventsOf_note_of_ne fun heq => hc (Option.some.inj heq).symm
  have hnot : L.next ∉ L.inFlight := by
    intro hmem
    obtain ⟨x, hx, hx'⟩ := mem_map.1 hmem
    exact (h.active _ (h.waiting x hx).1).ne hx'
  refine ⟨⟨h.once, ?_, ?_, ?_, ?_⟩, Nat.lt_succ_self _, hnot, Finset.mem_insert_self _ _, ?_⟩
  · intro x hx
    obtain ⟨hact, hev, hids⟩ := h.waiting x hx
    exact ⟨Finset.mem_insert_of_mem hact, (hevents _ (hfresh _ (h.active _ hact))).trans hev, hids⟩
  · intro c hc
    rcases Finset.mem_insert.1 hc with rfl | hc
    · exact Nat.lt_succ_self _
    · exact Nat.lt_succ_of_lt (h.active c hc)
  · intro e he c hc
    rcases mem_append.1 he with he | he
    · exact Nat.lt_succ_of_lt (h.noted e he c hc)
    · obtain rfl := mem_singleton.1 he
      obtain rfl := Option.some.inj hc
      exact Nat.lt_succ_self _
  · intro c hc hne hflight
    have hlt : c < L.next := Nat.lt_of_le_of_ne (Nat.lt_succ_iff.1 hc) hne
    obtain ⟨hact, hclosed⟩ := h.closed c hlt (fun hf => hf) hflight
    refine ⟨fun hmem => ?_, (hevents c hne).symm ▸ hclosed⟩
    rcases Finset.mem_insert.1 hmem with heq | hmem
    · exact hne heq
    · exact hact hmem
  · show (Ledger.note _ L.next .added).eventsOf L.next = [.added]
    rw [eventsOf_note_self]
    exact congrArg (· ++ [RouteEvent.added]) (eventsOf_next h)

/-- A response takes its context out of the requests in flight. -/
theorem Sound.answered (h : L.Sound) (hmem : (c, ctx) ∈ L.waiting) :
    (L.answered c).OnItsWay c [.added] := by
  obtain ⟨hact, hev, -⟩ := h.waiting _ hmem
  have hflight : ∀ c', c' ∈ (L.answered c).inFlight ↔ c' ∈ L.inFlight ∧ c' ≠ c := by
    intro c'
    unfold inFlight Ledger.answered
    simp only [mem_map, List.mem_filter, decide_eq_true_eq]
    constructor
    · rintro ⟨x, ⟨hx, hne⟩, rfl⟩
      exact ⟨⟨x, hx, rfl⟩, hne⟩
    · rintro ⟨⟨x, hx, rfl⟩, hne⟩
      exact ⟨x, ⟨hx, hne⟩, rfl⟩
  refine ⟨⟨?_, ?_, h.active, h.noted, ?_⟩, h.active c hact, ?_, hact, hev⟩
  · exact h.once.sublist (filter_sublist.map _)
  · exact fun x hx => h.waiting x (mem_of_mem_filter hx)
  · intro c' hc' hne hnot
    exact h.closed c' hc' (fun hf => hf) fun hin => hnot ((hflight c').2 ⟨hin, hne⟩)
  · exact fun hin => ((hflight c).1 hin).2 rfl

/-- The context is sent. -/
theorem OnItsWay.send (h : L.OnItsWay c [.added]) (hids : ctx.recordIds ≠ []) : (L.send c ctx).Sound := by
  have hflight : (L.send c ctx).inFlight = L.inFlight ++ [c] := by
    simp [inFlight, Ledger.send]
  refine ⟨?_, ?_, h.others.active, h.others.noted, ?_⟩
  · rw [hflight, nodup_append]
    refine ⟨h.others.once, nodup_singleton c, ?_⟩
    intro a ha b hb hab
    obtain rfl := mem_singleton.1 hb
    exact h.notInFlight (hab ▸ ha)
  · intro x hx
    rcases mem_append.1 hx with hx | hx
    · exact h.others.waiting x hx
    · obtain rfl := mem_singleton.1 hx
      exact ⟨h.isActive, h.history, hids⟩
  · intro c' hc' _ hnot
    rw [hflight, mem_append, not_or] at hnot
    exact h.others.closed c' hc' (fun heq => hnot.2 (mem_singleton.2 heq)) hnot.1

/-- Only the history of a context left out is touched by an event noted
for it, and none by one that is for no context. -/
theorem SoundBut.note {left : ContextId → Prop} (h : L.SoundBut left) {x : Option ContextId}
    (hx : ∀ c, x = some c → left c ∧ c < L.next ∧ c ∉ L.inFlight) : (L.note x e).SoundBut left := by
  refine ⟨h.once, ?_, h.active, ?_, ?_⟩
  · intro y hy
    rw [eventsOf_note_of_ne fun heq => (hx _ heq).2.2 (mem_map_of_mem hy)]
    exact h.waiting y hy
  · intro y hy c hc
    rcases mem_append.1 hy with hy | hy
    · exact h.noted y hy c hc
    · obtain rfl := mem_singleton.1 hy
      exact (hx c hc).2.1
  · intro c' hc' hother hflight
    rw [eventsOf_note_of_ne fun heq => hother (hx _ heq).1]
    exact h.closed c' hc' hother hflight

theorem Sound.note_none (h : L.Sound) (e : RouteEvent) : (L.note none e).Sound :=
  SoundBut.note h fun _ hc => absurd hc.symm (Option.some_ne_none _)

variable {es : List RouteEvent}

theorem OnItsWay.note (h : L.OnItsWay c es) (e : RouteEvent) :
    (L.note c e).OnItsWay c (es ++ [e]) :=
  { h with
    others := h.others.note fun _ hc => Option.some.inj hc ▸ ⟨rfl, h.created, h.notInFlight⟩
    history := by rw [eventsOf_note_self, h.history] }

theorem OnItsWay.note_none (h : L.OnItsWay c es) (e : RouteEvent) :
    (L.note none e).OnItsWay c es :=
  { h with
    others := h.others.note fun _ hc => absurd hc.symm (Option.some_ne_none _)
    history := by rw [eventsOf_note_of_ne (Option.some_ne_none c).symm, h.history] }

/-- The context is closed. -/
theorem OnItsWay.close (h : L.OnItsWay c es) {handler : Terminal} {ids : List StorageRecordId}
    (hclosed : ClosedOnce (es ++ [.closed handler ids])) : (L.close c handler ids).Sound := by
  have hnoted := h.note (.closed handler ids)
  refine ⟨hnoted.others.once, ?_, ?_, hnoted.others.noted, ?_⟩
  · intro x hx
    have hne : x.1 ≠ c := fun heq => h.notInFlight (heq ▸ mem_map_of_mem hx)
    obtain ⟨hact, hev, hids⟩ := hnoted.others.waiting x hx
    exact ⟨Finset.mem_erase.2 ⟨hne, hact⟩, hev, hids⟩
  · exact fun c' hc' => h.others.active c' (Finset.mem_of_mem_erase hc')
  · intro c' hc' _ hflight
    by_cases heq : c' = c
    · subst heq
      refine ⟨fun hmem => (Finset.mem_erase.1 hmem).1 rfl, ?_⟩
      rw [show (L.close c' handler ids).eventsOf c' = _ from hnoted.history]
      exact hclosed
    · obtain ⟨hact, hdone⟩ := hnoted.others.closed c' hc' heq hflight
      exact ⟨fun hmem => hact (Finset.mem_of_mem_erase hmem), hdone⟩

end Ledger

/-! ## The routes -/

namespace TelemetrySystem

variable {s : TelemetrySystem SQLite} {D : DiskStorage SQLite} {fresh : SQLite}
  {cfg : SystemConfig} {c : ContextId} {ctx : EventsUploadContext} {now : ℕ}
  {latency : EventLatency} {response : HttpResponse} {a : ℕ × SystemOp}

/-- The ledger of a state. -/
def ledger {δ : Type} (s : TelemetrySystem δ) : Ledger where
  active := s.tpm.activeUploads
  waiting := s.httpCallbacks
  next := s.nextContext
  trace := s.trace

/-- The history of a context. -/
def eventsOf {δ : Type} (s : TelemetrySystem δ) (c : ContextId) : List RouteEvent :=
  s.ledger.eventsOf c

theorem recordIds_nodup (ctx : EventsUploadContext) : ctx.recordIds.Nodup :=
  ctx.recordIdsAndTenantIds.keys_nodup

/-- A route through the storage closes its context, unless it throws. -/
theorem settle_sound (h : s.ledger.OnItsWay c [.added]) (hids : ctx.recordIds ≠ [])
    {route : StorageRoute} (hcall : (route.1 ctx).settledIds = ctx.recordIds)
    (hroute : route.2 ≠ .nothingToUpload)
    (hfault : (s.settle D c ctx route now).fault = none) :
    (s.settle D c ctx route now).ledger.Sound := by
  unfold settle at hfault ⊢
  rcases hends : (route.1 ctx).outcome D s.storage now with _ | _
  · rw [hends] at hfault
    cases hfault
  · exact (h.note (.called now (route.1 ctx))).close
      (closedOnce_settled hroute hcall hids (recordIds_nodup ctx))

/-- The callbacks are no concern of a route through the storage. -/
theorem removeCallback_settle (s : TelemetrySystem SQLite) (c : ContextId)
    (ctx : EventsUploadContext) (route : StorageRoute) (now : ℕ) :
    (s.settle D c ctx route now).removeCallback c =
      (s.removeCallback c).settle D c ctx route now := by
  unfold settle removeCallback
  dsimp only
  rcases (route.1 ctx).outcome D s.storage now with _ | _ <;> rfl

theorem settle_frame (s : TelemetrySystem SQLite) (c : ContextId)
    (ctx : EventsUploadContext) (route : StorageRoute) (now : ℕ) :
    (s.settle D c ctx route now).httpCallbacks = s.httpCallbacks ∧
      (s.settle D c ctx route now).nextContext = s.nextContext := by
  unfold settle
  dsimp only
  rcases (route.1 ctx).outcome D s.storage now with _ | _ <;> exact ⟨rfl, rfl⟩

theorem recordIds_handleCompress {ctx' : EventsUploadContext}
    (h : cfg.handleCompress c ctx = some ctx') : ctx'.recordIds = ctx.recordIds := by
  unfold SystemConfig.handleCompress at h
  split_ifs at h
  · obtain rfl := Option.some.inj h
    rfl
  · obtain ⟨body, -, rfl⟩ := Option.map_eq_some_iff.1 h
    rfl

theorem packagedEvents_sound (h : s.ledger.OnItsWay c [.added]) (hids : ctx.recordIds ≠ [])
    (hfault : (s.packagedEvents D cfg c ctx now).fault = none) :
    (s.packagedEvents D cfg c ctx now).ledger.Sound := by
  unfold packagedEvents at hfault ⊢
  rcases hcompress : cfg.handleCompress c ctx with _ | ctx'
  · rw [hcompress] at hfault
    exact settle_sound h hids rfl (by decide) hfault
  · exact h.send (recordIds_handleCompress hcompress ▸ hids)

/-- The retrieved context has a package when it has a record. -/
theorem tidy_retrieved (fresh : SQLite) (cfg : SystemConfig) (storage : Handler SQLite)
    (latency : EventLatency) (now : ℕ) :
    Packager.Tidy (handleRetrieveEvents (sqliteStorage fresh) cfg.packager storage
      (requested latency 0) now).2.1 := by
  have hstart : Packager.Tidy (requested latency 0) := iff_of_true rfl rfl
  exact Handler.getAndReserveRecords_state (P := Packager.Tidy)
    (fun ctx record htidy => htidy.handleAddEventToPackage record) hstart leaseTimeMs latency 0 now

/-- **A new context runs through the routes**: it is closed, or sent. -/
theorem initiateUpload_sound (h : s.ledger.OnItsWay c [.added])
    (hsafe : s.storage.RetrievalSafe cfg.packager latency now)
    (hfault : (s.initiateUpload (sqliteStorage fresh) cfg c (requested latency 0) now).fault = none) :
    (s.initiateUpload (sqliteStorage fresh) cfg c (requested latency 0) now).ledger.Sound := by
  have htidy := tidy_retrieved fresh cfg s.storage latency now
  have hnothing := Handler.recordIds_of_retrievalFailed fresh hsafe
  set read := RouteEvent.called now (retrieval cfg (requested latency 0))
  have hread := h.note_none read
  unfold initiateUpload at hfault ⊢
  rcases hret : handleRetrieveEvents (sqliteStorage fresh) cfg.packager s.storage
    (requested latency 0) now with ⟨_ | _, ctx, h'⟩
  · -- the retrieval failed, and so nothing is packaged
    rw [hret] at hnothing
    have hnil : ctx.recordIds = [] := hnothing rfl
    show Ledger.Sound ((s.ledger.note none read).close c .nothingToUpload ctx.recordIds)
    rw [hnil]
    exact hread.close closedOnce_nothing
  · rw [hret] at hfault htidy
    unfold Packager.handleFinalizePackage at hfault ⊢
    dsimp only at hfault ⊢
    by_cases hempty : ctx.packageIds.entries = []
    · rw [if_pos hempty]
      show Ledger.Sound ((s.ledger.note none read).close c .nothingToUpload ctx.recordIds)
      rw [htidy.1 hempty]
      exact hread.close closedOnce_nothing
    · rw [if_neg hempty] at hfault ⊢
      -- a package means a packaged record, which the request has to answer for
      have hids : ctx.recordIds ≠ [] := fun hnil => hempty (htidy.2 hnil)
      exact packagedEvents_sound hread hids hfault

theorem openUpload_sound (h : s.ledger.Sound)
    (hsafe : s.storage.RetrievalSafe cfg.packager latency now)
    (hfault : (s.openUpload (sqliteStorage fresh) cfg latency now).fault = none) :
    (s.openUpload (sqliteStorage fresh) cfg latency now).ledger.Sound :=
  initiateUpload_sound (s := s.addContext) h.add hsafe hfault

theorem route_ne_nothingToUpload (decoded : Decoded) :
    decoded.route.2 ≠ .nothingToUpload := by
  cases decoded <;> decide

/-- Every route passes the ids of its context. -/
theorem settledIds_route (decoded : Decoded) (ctx : EventsUploadContext) :
    (decoded.route.1 ctx).settledIds = ctx.recordIds := by
  cases decoded <;> rfl

/-- A response to a request in flight. -/
theorem onHttpResponse_of_find {c' : ContextId}
    (hfind : (s.httpCallbacks.find? fun callback => callback.1 = c) = some (c', ctx))
    (hfault : (s.onHttpResponse D cfg c response now).fault = none) :
    ∃ (ctx' : EventsUploadContext) (decoded : Decoded), ctx'.recordIds = ctx.recordIds ∧
      s.onHttpResponse D cfg c response now =
        (s.removeCallback c).settle D c ctx' decoded.route now := by
  have hids := HttpResponseDecoder.handleDecode_recordIds cfg.parse
    { ctx with httpResponse := some response } response
  unfold onHttpResponse at hfault ⊢
  rw [hfind] at hfault ⊢
  dsimp only at hfault ⊢
  generalize HttpResponseDecoder.handleDecode cfg.parse
    { ctx with httpResponse := some response } response = res at hids hfault ⊢
  obtain ⟨decoded, ctx'⟩ := res
  refine ⟨ctx', decoded, hids, ?_⟩
  rw [← removeCallback_settle]
  refine if_neg fun hsome => ?_
  rw [if_pos hsome] at hfault
  rw [hfault] at hsome
  cases hsome

/-- **A response closes its context.** -/
theorem onHttpResponse_sound (h : s.ledger.Sound)
    (hfault : (s.onHttpResponse D cfg c response now).fault = none) :
    (s.onHttpResponse D cfg c response now).ledger.Sound ∧
      c ∉ (s.onHttpResponse D cfg c response now).ledger.inFlight ∧
      (s.onHttpResponse D cfg c response now).nextContext = s.nextContext := by
  rcases hfind : s.httpCallbacks.find? fun callback => callback.1 = c with _ | ⟨c', ctx⟩
  · -- no request of this context is in flight
    have hsame : s.onHttpResponse D cfg c response now = s := by
      unfold onHttpResponse
      rw [hfind]
    rw [hsame]
    refine ⟨h, fun hmem => ?_, rfl⟩
    obtain ⟨x, hx, hx'⟩ := mem_map.1 hmem
    exact find?_eq_none.1 hfind x hx (by simpa using hx')
  · have hc : c' = c := by simpa using find?_some hfind
    subst hc
    have hmem : (c', ctx) ∈ s.ledger.waiting := mem_of_find?_eq_some hfind
    have hway : (s.removeCallback c').ledger.OnItsWay c' [.added] := h.answered hmem
    obtain ⟨ctx', decoded, hids, heq⟩ := onHttpResponse_of_find hfind hfault
    rw [heq] at hfault ⊢
    obtain ⟨hcallbacks, hnext⟩ := settle_frame (s.removeCallback c') c' ctx' decoded.route now
    refine ⟨settle_sound hway (hids ▸ (h.waiting _ hmem).2.2) (settledIds_route _ _)
      (route_ne_nothingToUpload _) hfault, ?_, hnext⟩
    unfold Ledger.inFlight
    rw [show Ledger.waiting _ = _ from hcallbacks]
    exact hway.notInFlight

/-! ## The calls on the storage -/

/-- The calls that were made on the storage. -/
def calls {δ : Type} (s : TelemetrySystem δ) : List (ℕ × HandlerOp) :=
  s.trace.filterMap fun e => e.2.call?

/-- **The storage is what the calls of the trace have made of it.** -/
def Performed (D : DiskStorage SQLite) (storage : Handler SQLite) (s : TelemetrySystem SQLite) :
    Prop := s.storage = run (Handler.step D) storage s.calls

section

variable {storage : Handler SQLite} (h : s.Performed D storage)
include h

theorem Performed.callStorage (c : Option ContextId) (now : ℕ) (op : HandlerOp) :
    (s.callStorage D c now op).Performed D storage := by
  have hcalls : (s.callStorage D c now op).calls = s.calls ++ [(now, op)] := by
    simp [calls, TelemetrySystem.callStorage, TelemetrySystem.note, RouteEvent.call?]
  rw [Performed, hcalls, run_append, ← h]
  rfl

theorem Performed.close (c : ContextId) (handler : Terminal) (ctx : EventsUploadContext) :
    (s.close c handler ctx).Performed D storage := by
  have hcalls : (s.close c handler ctx).calls = s.calls := by
    simp [calls, TelemetrySystem.close, TelemetrySystem.note, RouteEvent.call?]
  rw [Performed, hcalls]
  exact h

theorem Performed.settle (c : ContextId) (ctx : EventsUploadContext) (route : StorageRoute)
    (now : ℕ) : (s.settle D c ctx route now).Performed D storage := by
  have hcalled := h.callStorage c now (route.1 ctx)
  unfold TelemetrySystem.settle
  dsimp only
  split
  · exact hcalled
  · exact hcalled.close c route.2 ctx

theorem Performed.initiateUpload (c : ContextId) (ctx : EventsUploadContext) (now : ℕ) :
    (s.initiateUpload D cfg c ctx now).Performed D storage := by
  have hread := h.callStorage none now (retrieval cfg ctx)
  unfold TelemetrySystem.initiateUpload
  dsimp only
  split
  · exact hread.close c _ _
  · split
    · exact hread.close c _ _
    · unfold packagedEvents
      split
      · exact hread.settle c _ _ now
      · exact hread

theorem Performed.openUpload (latency : EventLatency) (now : ℕ) :
    (s.openUpload D cfg latency now).Performed D storage := by
  have hadded : s.addContext.Performed D storage := by
    have hcalls : s.addContext.calls = s.calls := by
      simp [calls, addContext, TelemetrySystem.note, RouteEvent.call?]
    rw [Performed, hcalls]
    exact h
  exact hadded.initiateUpload _ _ now

/-- A step of the system. -/
theorem Performed.step (a : ℕ × SystemOp) : (s.step D cfg a).Performed D storage := by
  obtain ⟨now, op⟩ := a
  unfold TelemetrySystem.step
  split_ifs
  · exact h
  · cases op with
    | start | pause | stop => exact h
    | storage op => exact h.callStorage none now op
    | uploadAsync latency =>
      dsimp only
      unfold uploadAsync
      split_ifs
      · exact h.openUpload latency now
      · exact h
    | preparedIncomingEvent record =>
      have hstored := h.callStorage none now (.storeRecord (stamped record now))
      dsimp only
      unfold preparedIncomingEvent handleEventArrived
      dsimp only
      split_ifs
      · exact hstored.openUpload record.latency now
      · exact hstored
      · exact hstored
    | onHttpResponse c response =>
      dsimp only
      unfold onHttpResponse
      split
      · exact h
      · dsimp only
        split_ifs
        · exact h.settle c _ _ now
        · exact h.settle c _ _ now

end

/-! ## Runs -/

/-- **The uploads a step opens are safe**: the retrieval that follows does
not fail after a record was packaged. -/
def RetrievesSafely (fresh : SQLite) (cfg : SystemConfig) (s : TelemetrySystem SQLite)
    (a : ℕ × SystemOp) : Prop :=
  match a.2 with
  | .uploadAsync latency =>
    s.tpm.uploadsAsync = true → s.storage.RetrievalSafe cfg.packager latency a.1
  | .preparedIncomingEvent record =>
    (handleStoreRecord (sqliteStorage fresh) s.storage record a.1).1 = true →
      s.tpm.uploadsArrived record.latency = true →
      (handleStoreRecord (sqliteStorage fresh) s.storage record a.1).2.RetrievalSafe cfg.packager
        record.latency a.1
  | _ => True

/-- A step of a run keeps the invariant, unless the process ends in it. -/
theorem step_sound (h : s.ledger.Sound) (hsafe : s.RetrievesSafely fresh cfg a)
    (hfault : (s.step (sqliteStorage fresh) cfg a).fault = none) :
    (s.step (sqliteStorage fresh) cfg a).ledger.Sound := by
  obtain ⟨now, op⟩ := a
  unfold step at hfault ⊢
  split_ifs at hfault ⊢ with hsome
  · exact h
  · cases op with
    | start | pause | stop => exact h
    | storage op => exact h.note_none _
    | onHttpResponse c response => exact (onHttpResponse_sound h hfault).1
    | uploadAsync latency =>
      dsimp only at hfault ⊢
      unfold uploadAsync at hfault ⊢
      -- a manager that is paused, or whose scheduled upload was aborted, opens nothing
      split_ifs at hfault ⊢ with hup
      · exact openUpload_sound h (hsafe hup) hfault
      · exact h
    | preparedIncomingEvent record =>
      dsimp only at hfault ⊢
      unfold preparedIncomingEvent at hfault ⊢
      have hnoted := h.note_none (.called now (.storeRecord (stamped record now)))
      dsimp only at hfault ⊢
      split_ifs at hfault ⊢ with hstored
      · -- the upload reads the storage as the new record left it
        unfold handleEventArrived at hfault ⊢
        split_ifs at hfault ⊢ with hup
        · exact openUpload_sound hnoted (hsafe hstored hup) hfault
        · exact hnoted
      · exact hnoted

/-- The invariant, as long as the process runs. -/
def SoundUnlessEnded (s : TelemetrySystem SQLite) : Prop := s.fault = none → s.ledger.Sound

/-- Before the first step there is no context. -/
theorem sound_start (storage : Handler SQLite) :
    Ledger.Sound (TelemetrySystem.ledger { storage := storage }) where
  once := nodup_nil
  waiting := fun _ hx => absurd hx not_mem_nil
  active := fun c hc => absurd hc (Finset.notMem_empty c)
  noted := fun _ he => absurd he not_mem_nil
  closed := fun c hc => absurd hc (Nat.not_lt_zero c)

/-- A step of a process that has ended does nothing. -/
theorem fault_of_step (hfault : (s.step D cfg a).fault = none) :
    s.fault = none := by
  by_contra hne
  have hsome : s.fault.isSome = true := Option.isSome_iff_ne_none.2 hne
  unfold step at hfault
  rw [if_pos hsome] at hfault
  exact hne hfault

/-- **The uploads of a state.** A context that was added and is no longer
active was closed exactly once. One that is active was not closed yet and
has exactly one request in flight, and the response to that, whatever it
is, closes it exactly once. The calls in the histories are those that made
the storage what it is. -/
structure UploadsClosed (D : DiskStorage SQLite) (cfg : SystemConfig) (storage : Handler SQLite)
    (s : TelemetrySystem SQLite) : Prop where
  performed : s.storage = run (Handler.step D) storage s.calls
  closed : ∀ c, .added ∈ s.eventsOf c → c ∉ s.tpm.activeUploads → ClosedOnce (s.eventsOf c)
  waiting : ∀ c ∈ s.tpm.activeUploads, (s.httpCallbacks.map Prod.fst).count c = 1 ∧
    ∀ e ∈ s.eventsOf c, e.closes = false
  answered : ∀ c ∈ s.tpm.activeUploads, ∀ now response,
    let s' := s.step D cfg (now, .onHttpResponse c response)
    s'.fault = none → c ∉ s'.tpm.activeUploads ∧ ClosedOnce (s'.eventsOf c)

theorem mem_inFlight_of_active (h : s.ledger.Sound) (hc : c ∈ s.ledger.active) :
    c ∈ s.ledger.inFlight := by
  by_contra hnot
  exact (h.closed c (h.active c hc) (fun hf => hf) hnot).1 hc

theorem uploadsClosed_of_sound {storage : Handler SQLite} (h : s.ledger.Sound)
    (hcalls : s.Performed D storage) :
    UploadsClosed D cfg storage s where
  performed := hcalls
  closed := by
    intro c hadded hnot
    obtain ⟨e, he, -⟩ := mem_map.1 hadded
    have hlt : c < s.ledger.next := by
      exact h.noted e (mem_of_mem_filter he) c (by simpa using (List.mem_filter.1 he).2)
    have hflight : c ∉ s.ledger.inFlight := by
      intro hmem
      obtain ⟨x, hx, rfl⟩ := mem_map.1 hmem
      exact hnot (h.waiting x hx).1
    exact (h.closed c hlt (fun hf => hf) hflight).2
  waiting := by
    intro c hc
    have hmem := mem_inFlight_of_active h hc
    obtain ⟨x, hx, rfl⟩ := mem_map.1 hmem
    refine ⟨count_eq_one_of_mem h.once hmem, fun e he => ?_⟩
    rw [show s.eventsOf x.1 = [.added] from (h.waiting x hx).2.1] at he
    obtain rfl := mem_singleton.1 he
    rfl
  answered := by
    intro c hc now response s' hfault
    have hstep : s' = s.onHttpResponse D cfg c response now := by
      have hnone := fault_of_step hfault
      show s.step D cfg (now, .onHttpResponse c response) = _
      unfold step
      rw [if_neg (by simp [hnone])]
    rw [hstep] at hfault ⊢
    obtain ⟨hsound, hnot, hnext⟩ := onHttpResponse_sound h hfault
    have hlt : c < (s.onHttpResponse D cfg c response now).nextContext :=
      hnext ▸ h.active c hc
    exact hsound.closed c hlt (fun hf => hf) hnot

end TelemetrySystem

open TelemetrySystem in
/-- **Every upload is closed exactly once**, in every run of the routes in
which no exception leaves a handler and no retrieval fails after it has
packaged a record. -/
theorem uploads_closed_once (fresh : SQLite) (cfg : SystemConfig) (storage : Handler SQLite)
    (as : List (ℕ × SystemOp))
    (hsafe : RunMeets (RetrievesSafely fresh cfg) (step (sqliteStorage fresh) cfg)
      { storage := storage } as)
    (hfault : (run (step (sqliteStorage fresh) cfg) { storage := storage } as).fault = none) :
    UploadsClosed (sqliteStorage fresh) cfg storage
      (run (step (sqliteStorage fresh) cfg) { storage := storage } as) := by
  have hstep : ∀ (s : TelemetrySystem SQLite) (a : ℕ × SystemOp), s.SoundUnlessEnded →
      s.RetrievesSafely fresh cfg a → (s.step (sqliteStorage fresh) cfg a).SoundUnlessEnded :=
    fun s a hinv hok hnone => step_sound (hinv (fault_of_step hnone)) hok hnone
  have hstart : SoundUnlessEnded { storage := storage } := fun _ => sound_start storage
  have hkeep : ∀ (s : TelemetrySystem SQLite) a, s.Performed (sqliteStorage fresh) storage →
      (s.step (sqliteStorage fresh) cfg a).Performed (sqliteStorage fresh) storage :=
    fun _ a h => h.step a
  have hnone : Performed (sqliteStorage fresh) storage { storage := storage } := rfl
  exact uploadsClosed_of_sound (run_invariant hstep hstart hsafe hfault)
    (run_preserves hkeep hnone as)

/-- A system with the settings of a short upload, over a handler. -/
def smallConfig : SystemConfig where
  packager := ⟨"", 10⟩
  compressionEnabled := true
  deflate := fun _ body => some body
  parse := fun _ => none

/-- A response with the status given. -/
def responseWith (statusCode : ℕ) : HttpResponse := ⟨.ok, statusCode, [], []⟩

theorem uploads_closed_once_sent :
    let D := sqliteStorage (SQLite.openOn SQLite.Engine.sound [])
    let s := run (TelemetrySystem.step D smallConfig)
      { storage := retrievingHandler [⟨"a", "t", .normal, .normal, 0, [1, 2], 0, 0⟩] [] }
      [(0, .start), (1000, .uploadAsync .normal), (2000, .onHttpResponse 0 (responseWith 200))]
    let storage := retrievingHandler [⟨"a", "t", .normal, .normal, 0, [1, 2], 0, 0⟩] []
    TelemetrySystem.UploadsClosed D smallConfig storage s ∧ s.eventsOf 0 =
      [.added, .called 2000 (.deleteRecords ["a"] [] true), .closed .eventsUploadSuccessful ["a"]] :=
  ⟨uploads_closed_once (SQLite.openOn SQLite.Engine.sound []) smallConfig
    (retrievingHandler [⟨"a", "t", .normal, .normal, 0, [1, 2], 0, 0⟩] [])
    [(0, .start), (1000, .uploadAsync .normal), (2000, .onHttpResponse 0 (responseWith 200))]
    ⟨trivial, (fun _ hnone => nomatch hnone), trivial, trivial⟩ rfl, rfl⟩

/-- **A packaged record in an upload with nothing to send.** Without a RAM
queue, the only row is over the upload limit: it is packaged, the
retrieval answers false, and the upload is closed as one with nothing to
upload. -/
theorem oversize_closed_as_nothing :
    let s := run (TelemetrySystem.step (sqliteStorage (SQLite.openOn SQLite.Engine.sound []))
        smallConfig)
      { storage := { retrievingHandler [] [⟨"a", "t", 1, 1, 0, 0, 0, [1, 2, 3]⟩] with
          memory := none } }
      [(0, .start), (1000, .uploadAsync .normal)]
    s.fault = none ∧ s.eventsOf 0 = [.added, .closed .nothingToUpload ["a"]] ∧
      ¬ ClosedOnce (s.eventsOf 0) := by
  exact ⟨rfl, rfl, not_closedOnce_nothing (by decide)⟩

end ClientTelemetry
