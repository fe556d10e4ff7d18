import TriggerScript.Proofs.Task.Basic

/-!
# One step of a machine

A step takes up the tasks that were started, answers the first request that can be answered, and
lets the thread that made it run on (`Machine.step?_cases`).
-/

namespace TriggerScript

namespace World

variable {w w' : World} {t u : TaskId} {r : Request} {reply : Reply}

/-- An answer takes a message from its queue, or the mark from a task that was asked to stop. -/
inductive Answers (w : World) (t : TaskId) : Request → Reply → World → Prop
  | cancelled {r : Request} (h : w.isStopping t = true) :
    Answers w t r .cancelled (w.updateTask t ({ · with stopping := false }))
  | turn : Answers w t .turn .go w
  | instant {i : Instant} (h : i ≤ w.elapsed) : Answers w t (.until i) .go w
  | late {q : Notify.QueueId} {deadline : Option Instant} (h : deadline.any (· ≤ w.elapsed)) :
    Answers w t (.receive q deadline) .late w
  | message {q : Notify.QueueId} {deadline : Option Instant} {name : String} {m : Value}
    {rest : List Value}
    (hearly : ¬ deadline.any (· ≤ w.elapsed)) (hqueue : w.queues[q]? = some ⟨name, m :: rest⟩) :
    Answers w t (.receive q deadline) (.message m)
      { w with queues := w.queues.modify q ({ · with messages := rest }) }
  | join {u : TaskId} (h : w.isPending u = false) : Answers w t (.join u) .go w

theorem answers_of_answer? (h : w.answer? t r = some (reply, w')) : w.Answers t r reply w' := by
  unfold answer? at h
  split at h
  · cases h
    exact .cancelled ‹_›
  · cases r with
    | turn =>
      cases h
      exact .turn
    | «until» i => grind [Answers]
    | receive q deadline => grind [Answers]
    | join v => grind [Answers, isPending]

theorem answer?_cases (h : w.answer? t r = some (reply, w')) :
    (w.isStopping t = true ∧ w' = w.updateTask t ({ · with stopping := false })) ∨
      (∃ queues, w' = { w with queues }) ∧ ∀ u, r = .join u → w.isPending u = false := by
  cases answers_of_answer? h with
  | cancelled hstop => exact .inl ⟨hstop, rfl⟩
  | turn => exact .inr ⟨⟨w.queues, rfl⟩, nofun⟩
  | instant _ => exact .inr ⟨⟨w.queues, rfl⟩, nofun⟩
  | late _ => exact .inr ⟨⟨w.queues, rfl⟩, nofun⟩
  | message _ _ => exact .inr ⟨⟨_, rfl⟩, nofun⟩
  | join hended =>
    refine .inr ⟨⟨w.queues, rfl⟩, ?_⟩
    rintro u ⟨⟩
    exact hended

theorem Joined.ended_of_answer? (hjoined : w.Joined t u)
    (h : w.answer? t (.join u) = some (reply, w')) : w.Ended u := by
  obtain ⟨⟨task, htask, -, hstopping⟩, hu⟩ := hjoined
  rcases answer?_cases h with ⟨hstop, -⟩ | ⟨-, hended⟩
  · rw [isStopping, htask] at hstop
    exact hstopping hstop
  · obtain ⟨utask, hutask⟩ := Option.isSome_iff_exists.1 hu
    exact ended_of_not_isPending hutask (hended u rfl)

theorem spares_answer? {P : TaskId → Prop} (h : w.answer? t r = some (reply, w')) :
    Spares P w w' := by
  rcases answer?_cases h with ⟨-, rfl⟩ | ⟨⟨queues, rfl⟩, -⟩
  · exact .mark nofun
  · exact .of_tasks_eq rfl

end World

namespace Machine

variable {m m' : Machine} {work : Work}

theorem pick_cases {w w' : World} {threads others : List Thread} {th : Thread} {reply : Reply}
    (h : pick w threads = some (th, reply, w', others)) :
    ∃ before after, threads = before ++ th :: after ∧ others = before ++ after ∧
      w.answer? th.id th.request = some (reply, w') := by
  induction threads generalizing others with
  | nil => cases h
  | cons th' rest ih =>
    unfold pick at h
    split at h
    · rename_i hanswer
      cases h
      exact ⟨[], rest, rfl, rfl, hanswer⟩
    · obtain ⟨⟨th'', reply', w'', others'⟩, hpick, heq⟩ := Option.map_eq_some_iff.1 h
      cases heq
      obtain ⟨before, after, rfl, rfl, hanswer⟩ := ih hpick
      exact ⟨th' :: before, after, rfl, rfl, hanswer⟩

def after (t : TaskId) (others : List Thread) : Step Value → Machine
  | .ended result w => ⟨w.endTask t result, others⟩
  | .waiting request w resume => ⟨w, others ++ [⟨t, request, resume⟩]⟩

theorem step?_cases (h : m.step? work = some m') :
    ∃ th reply w before others, (m.adopt work).threads = before ++ th :: others ∧
      (m.adopt work).world.answer? th.id th.request = some (reply, w) ∧
      m' = after th.id (before ++ others) (th.resume reply { w with running := th.id }) := by
  unfold step? at h
  dsimp only at h
  split at h
  · cases h
  · rename_i th reply w others hpick
    obtain ⟨before, others, hthreads, rfl, hanswer⟩ := pick_cases hpick
    refine ⟨th, reply, w, before, others, hthreads, hanswer, ?_⟩
    split at h
    · rename_i result w' hend
      cases h
      rw [hend]
      rfl
    · rename_i request w' resume hwait
      cases h
      rw [hwait]
      rfl

end Machine

end TriggerScript
