import ClientTelemetry.Common.Run
import ClientTelemetry.Http.Model.HttpClientCapi
/-!
# HTTP clients that share their operations

A response takes the operation out of the map before its callback is
called, so that a callback is called once and with the response for its
id, whatever client it belongs to. `CancelAllRequests` makes no difference
between the operations of its client and those of the others.
-/

namespace ClientTelemetry

open List

namespace HttpClients

variable {κ : Type*} {s : HttpClients κ}

/-- **What is pending when a client cancels all its requests was sent
through it.** -/
def OwnPending (s : HttpClients κ) : HttpClientAction κ → Prop
  | .cancelAllRequests client => ∀ operation ∈ s.pending.values, operation.client = client
  | _ => True

/-- **Each callback is called once**, with a response that was given for
the id of its request. -/
structure Answers (s : HttpClients κ) : Prop where
  once : (s.answered.map fun e => e.1.callback).Nodup
  given : ∀ e ∈ s.answered, e.2.1 = capiRequestId e.1.request ∧ e.2 ∈ s.given
  sent : ∀ e ∈ s.answered, e.1.callback < s.sends
  /-- What is pending is kept under its id, and has not been answered. -/
  pending : ∀ id operation, s.pending.find? id = some operation →
    id = capiRequestId operation.request ∧ operation.callback < s.sends ∧
      ∀ e ∈ s.answered, e.1.callback ≠ operation.callback
  apart : ∀ id operation id' operation', s.pending.find? id = some operation →
    s.pending.find? id' = some operation' → operation.callback = operation'.callback → id = id'

namespace Answers

/-- A send has a callback of its own. -/
theorem sendRequestAsync (h : Answers s) (client : κ) (request : ℕ) :
    Answers (s.sendRequestAsync client request) := by
  have hold {id : String} {operation : HttpOperation κ}
      (hfind : (s.sendRequestAsync client request).pending.find? id = some operation) :
      (id = capiRequestId request ∧ operation = ⟨client, request, s.sends⟩) ∨
        s.pending.find? id = some operation := by
    simp only [HttpClients.sendRequestAsync, OrdMap.find?_insert] at hfind
    split_ifs at hfind with hid
    · exact .inl ⟨hid, (Option.some.inj hfind).symm⟩
    · exact .inr hfind
  refine ⟨h.once, h.given, fun e he => (h.sent e he).trans (Nat.lt_succ_self _),
    fun id operation hfind => ?_, fun id operation id' operation' hfind hfind' hsame => ?_⟩
  · rcases hold hfind with ⟨hid, rfl⟩ | hfind
    · exact ⟨hid, Nat.lt_succ_self _, fun e he => (h.sent e he).ne⟩
    · obtain ⟨hid, hsent, hopen⟩ := h.pending id operation hfind
      exact ⟨hid, hsent.trans (Nat.lt_succ_self _), hopen⟩
  · rcases hold hfind with ⟨hid, rfl⟩ | hfind <;> rcases hold hfind' with ⟨hid', rfl⟩ | hfind'
    · exact hid.trans hid'.symm
    · exact absurd hsame (h.pending _ _ hfind').2.1.ne'
    · exact absurd hsame (h.pending _ _ hfind).2.1.ne
    · exact h.apart _ _ _ _ hfind hfind' hsame

/-- The operation is taken out before its callback is called. -/
theorem onHttpResponse (h : Answers s) (requestId : String) (response : HttpResponse) :
    Answers (s.onHttpResponse requestId response) := by
  have hgiven := fun e he =>
    (h.given e he).imp_right (mem_cons_of_mem (requestId, response))
  unfold HttpClients.onHttpResponse
  cases hfound : s.pending.find? requestId with
  | none =>
    simp only [hfound]
    exact ⟨h.once, hgiven, h.sent, h.pending, h.apart⟩
  | some answered =>
    obtain ⟨hid, hsent, hopen⟩ := h.pending requestId answered hfound
    simp only [hfound]
    have hold {id : String} {operation : HttpOperation κ}
        (hfind : (s.pending.erase requestId).find? id = some operation) :
        id ≠ requestId ∧ s.pending.find? id = some operation := by
      rw [OrdMap.find?_erase] at hfind
      split_ifs at hfind with hne
      exact ⟨hne, hfind⟩
    refine ⟨nodup_cons.2 ⟨fun hin => ?_, h.once⟩,
      forall_mem_cons.2 ⟨⟨hid, mem_cons_self⟩, hgiven⟩,
      forall_mem_cons.2 ⟨hsent, h.sent⟩, fun id operation hfind => ?_,
      fun id _ id' _ hfind hfind' => h.apart _ _ _ _ (hold hfind).2 (hold hfind').2⟩
    · obtain ⟨e, he, hsame⟩ := mem_map.1 hin
      exact hopen e he hsame
    · obtain ⟨hne, hfind⟩ := hold hfind
      obtain ⟨hid', hsent', hopen'⟩ := h.pending id operation hfind
      exact ⟨hid', hsent', forall_mem_cons.2
        ⟨fun hsame => hne (h.apart _ _ _ _ hfound hfind hsame).symm, hopen'⟩⟩

/-- **It holds after every step.** -/
theorem step (h : Answers s) (a : HttpClientAction κ) : Answers (s.step a) := by
  cases a with
  | sendRequestAsync client request => exact h.sendRequestAsync client request
  | cancelRequestAsync client id =>
    simp only [HttpClients.step, cancelRequestAsync]
    split
    · exact { h with }
    · exact h
  | cancelAllRequests client => exact { h with }
  | onHttpResponse requestId result capiResponse => exact h.onHttpResponse requestId _

end Answers

/-- What one step sweeps is what was pending. -/
theorem swept_step_iff (a : HttpClientAction κ) : (∀ e ∈ (s.step a).swept, e.2.client = e.1) ↔
      OwnPending s a ∧ ∀ e ∈ s.swept, e.2.client = e.1 := by
  cases a with
  | cancelAllRequests client =>
    simp only [step, cancelAllRequests, forall_mem_append, forall_mem_map]
    exact Iff.rfl
  | sendRequestAsync client request => exact (and_iff_right trivial).symm
  | cancelRequestAsync client id =>
    simp only [step, cancelRequestAsync]
    split <;> exact (and_iff_right trivial).symm
  | onHttpResponse requestId result capiResponse =>
    simp only [step, onHttpResponse]
    split <;> exact (and_iff_right trivial).symm

/-- **Along a run**, cancel functions are called for own requests only if
and only if nothing else is ever pending. -/
theorem swept_run_iff {as : List (HttpClientAction κ)} :
    (∀ e ∈ (run step s as).swept, e.2.client = e.1) ↔
      (∀ e ∈ s.swept, e.2.client = e.1) ∧ RunMeets OwnPending step s as := by
  induction as generalizing s with
  | nil => exact (and_iff_left trivial).symm
  | cons a as ih =>
    rw [run_cons, ih, swept_step_iff, runMeets_cons]
    tauto

/-- **The clients of one process**, in every interleaving of their calls
and the responses of the host: each callback is called at most once, and
with a response given for the id of its request; and
`CancelAllRequests` cancels only requests of its own client if and only if
others have none pending whenever it is called. -/
theorem http_clients_apart (as : List (HttpClientAction κ)) :
    let s := run step ({} : HttpClients κ) as
    (s.answered.map fun e => e.1.callback).Nodup ∧
    (∀ e ∈ s.answered, e.2.1 = capiRequestId e.1.request ∧ e.2 ∈ s.given) ∧
    ((∀ e ∈ s.swept, e.2.client = e.1) ↔ RunMeets OwnPending step ({} : HttpClients κ) as) := by
  have hinitial : Answers ({} : HttpClients κ) := ⟨nodup_nil, nofun, nofun, nofun, nofun⟩
  have hanswers := run_preserves (fun _ a h => h.step a) hinitial as
  exact ⟨hanswers.once, hanswers.given, swept_run_iff.trans (and_iff_right nofun)⟩

/-- **A client cancels the request of another.** -/
theorem cancels_for_another_client : (run step ({} : HttpClients Bool) [.sendRequestAsync true 0,
      .cancelAllRequests false]).swept = [(false, ⟨true, 0, 0⟩)] := rfl

end HttpClients

end ClientTelemetry
