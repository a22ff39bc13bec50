import ClientTelemetry.Pal.Model.WorkerThread
/-!
# Steps of the worker thread
-/

namespace ClientTelemetry

open List

variable {κ β : Type*}

theorem timerInsert_perm (item : Task β) (tasks : List (Task β)) :
    (timerInsert item tasks).Perm (item :: tasks) := by
  induction tasks with
  | nil => exact .refl _
  | cons first rest ih =>
    rw [timerInsert]
    split_ifs
    · exact (ih.cons first).trans (.swap item first rest)
    · exact .refl _

theorem timerInsert_sorted {item : Task β} {tasks : List (Task β)}
    (h : tasks.Pairwise fun first second => first.targetTime ≤ second.targetTime) :
    (timerInsert item tasks).Pairwise fun first second =>
      first.targetTime ≤ second.targetTime := by
  induction tasks with
  | nil => exact pairwise_singleton _ _
  | cons first rest ih =>
    rw [pairwise_cons] at h
    rw [timerInsert]
    split_ifs with hlt
    · refine pairwise_cons.2 ⟨fun other hother => ?_, ih h.2⟩
      rcases mem_cons.1 ((timerInsert_perm item rest).subset hother) with rfl | hother
      · exact hlt.le
      · exact h.1 other hother
    · refine pairwise_cons.2 ⟨fun other hother => ?_, pairwise_cons.2 h⟩
      rcases mem_cons.1 hother with rfl | hother
      · exact Nat.not_lt.1 hlt
      · exact (Nat.not_lt.1 hlt).trans (h.1 other hother)

theorem map_id_eraseP (tasks : List (Task β)) (id : ℕ) :
    (tasks.eraseP fun item => item.id = id).map Task.id = (tasks.map Task.id).erase id := by
  rw [erase_eq_eraseP', eraseP_map]
  rfl

namespace WorkerThread

variable {w w' : WorkerThread κ β} {id : ℕ}

/-- **What a look for a task can bring.** -/
inductive Takes (w : WorkerThread κ β) : Option (Task β) × WorkerThread κ β → Prop
  | nothing : Takes w (none, w)
  | forward {item rest target} (htimers : w.timerQueue = item :: rest)
      (htarget : target ≤ item.targetTime) :
    Takes w (none, { w with timerQueue := timerInsert { item with targetTime := target } rest })
  | timer {item rest} (htimers : w.timerQueue = item :: rest) :
    Takes w (some item, { w with timerQueue := rest, itemInProgress := some item.id })
  | task {item rest} (hqueue : w.queue = item :: rest) :
    Takes w (some item, { w with queue := rest, itemInProgress := some item.id })

theorem takes_takeQueued (w : WorkerThread κ β) : Takes w w.takeQueued := by
  unfold takeQueued
  cases hqueue : w.queue with
  | nil => exact .nothing
  | cons item rest => exact .task hqueue

theorem takes_takeItem (w : WorkerThread κ β) (now : ℕ) : Takes w (w.takeItem now) := by
  unfold takeItem
  cases htimers : w.timerQueue with
  | nil => exact w.takes_takeQueued
  | cons item rest =>
    simp only
    split_ifs with hdue hfar
    · exact .timer htimers
    · exact .forward htimers (by omega)
    · exact w.takes_takeQueued

/-- A task that is taken was in one of the queues. -/
theorem Takes.perm {item : Task β} (h : Takes w (some item, w')) :
    (w.timerQueue ++ w.queue).Perm (w'.timerQueue ++ w'.queue ++ [item]) := by
  cases h with
  | timer htimers =>
    rw [htimers]
    exact (perm_append_singleton item _).symm
  | task hqueue =>
    rw [hqueue, append_assoc]
    exact (perm_append_singleton item _).symm.append_left _

/-- A task that is brought forward is the same task. -/
theorem Takes.perm_ids (h : Takes w (none, w')) :
    (w'.timerQueue.map Task.id).Perm (w.timerQueue.map Task.id) := by
  cases h with
  | nothing => exact .refl _
  | forward htimers htarget =>
    rw [htimers]
    exact (timerInsert_perm _ _).map Task.id

theorem queueItem_perm (w : WorkerThread κ β) (item : Task β) :
    ((w.queueItem item).timerQueue ++ (w.queueItem item).queue).Perm
      (item :: (w.timerQueue ++ w.queue)) := by
  unfold queueItem
  split_ifs
  · exact (timerInsert_perm item _).append_right _
  · rw [← append_assoc]
    exact perm_append_singleton item _

theorem queueItem_itemInProgress (w : WorkerThread κ β) (item : Task β) :
    (w.queueItem item).itemInProgress = w.itemInProgress := by
  unfold queueItem
  split_ifs <;> rfl

/-- A caller finds its task in progress. -/
theorem cancelBegin_of_noted (h : w.itemInProgress = some id)
    (k : κ) : w.cancelBegin (.caller k) (some id) = (none, { w with lock := some k }) := by
  simp only [cancelBegin, h, if_true]

/-- A task that is not in progress is looked for among the timers. -/
theorem cancelBegin_of_ne (h : w.itemInProgress ≠ some id)
    (self : Thread κ) : w.cancelBegin self (some id) =
      (some true, { w with timerQueue := w.timerQueue.eraseP fun item => item.id = id }) := by
  simp only [cancelBegin, h, if_false]

end WorkerThread

end ClientTelemetry
