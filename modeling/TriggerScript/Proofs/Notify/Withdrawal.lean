import TriggerScript.Proofs.Notify.State

/-!
# A registration that is taken back

A queue is taken away by walking once more along the entities of its names. The walk ends at the
first entity that does not have the queue, and that is also the second of two names of one entity.
Entities that are first named behind such a place are `Stranded`: they keep the queue. So all is as
before exactly if no entity is stranded (`remove_add_watchersOf`).
-/

namespace TriggerScript.Notify

/-! ### Walks -/

def Misses (has : String → Prop) (es : List String) (e : String) : Prop :=
  e ∈ es → ∃ before last after, es = before ++ last :: after ∧ (last ∈ before ∨ ¬ has last) ∧
    e ∉ before

/-- The entity comes for the first time after a repetition. -/
def Stranded (es : List String) (e : String) : Prop :=
  ∃ before again after, es = before ++ again :: after ∧ again ∈ before ∧ e ∉ before ∧ e ∈ after

variable {has : String → Prop} {es : List String} {d e : String}

theorem misses_cons_of_not (hd : ¬ has d) : Misses has (d :: es) e :=
  fun _ ↦ ⟨[], d, es, rfl, .inr hd, List.not_mem_nil⟩

theorem misses_cons (hd : has d) :
    Misses has (d :: es) e ↔ e ≠ d ∧ Misses (fun d' ↦ d' ≠ d ∧ has d') es e := by
  constructor
  · intro h
    have tail (he : e ∈ d :: es) : e ≠ d ∧ ∃ before last after, es = before ++ last :: after ∧
        (last ∈ before ∨ ¬ (last ≠ d ∧ has last)) ∧ e ∉ before := by
      obtain ⟨before, last, after, heq, hlast, hbefore⟩ := h he
      cases before <;> grind
    grind [Misses]
  · rintro ⟨hne, h⟩ he
    obtain ⟨before, last, after, heq, hlast, hbefore⟩ := h ((List.mem_cons.1 he).resolve_left hne)
    exact ⟨d :: before, last, after, by grind, by grind, by grind⟩

theorem misses_iff_stranded (h : ∀ e ∈ es, has e) (he : e ∈ es) : Misses has es e ↔
    Stranded es e := by
  constructor
  · intro hmisses
    obtain ⟨before, last, after, rfl, hlast, hbefore⟩ := hmisses he
    exact ⟨before, last, after, rfl, by grind, hbefore, by grind⟩
  · rintro ⟨before, again, after, heq, hagain, hbefore, -⟩ -
    exact ⟨before, again, after, heq, .inl hagain, hbefore⟩

theorem Stranded.mem (h : Stranded es e) : e ∈ es := by
  obtain ⟨before, again, after, rfl, -, -, hafter⟩ := h
  simp [hafter]

namespace StateTable

variable {t : StateTable} {q : QueueId} {ns : List (Option String)}

theorem assign_of_not_mem {ws : Watchers} (h : q ∉ ws.map (·.1)) (names : Watched) :
    assign ws q names = ws ++ [(q, names)] := by
  induction ws with
  | nil => rfl
  | cons p ws ih =>
    obtain ⟨hne, hrest⟩ := not_or.1 (List.mem_cons.not.1 h)
    have hbeq : (p.1 == q) = false := by simpa using Ne.symm hne
    rw [assign, if_neg (by simp [hbeq]), ih hrest, List.cons_append]

theorem filter_of_not_mem {ws : Watchers} (h : q ∉ ws.map (·.1)) : ws.filter (·.1 ≠ q) = ws := by
  refine List.filter_eq_self.2 fun p hp ↦ ?_
  have hne : p.1 ≠ q := fun heq ↦ h (heq ▸ List.mem_map_of_mem hp)
  simpa using hne

theorem removeNames_fault (t : StateTable) (q : QueueId) (h : none ∉ ns) :
    (t.removeNames q ns).2 = none := by
  induction ns generalizing t with
  | nil => rfl
  | cons name ns ih =>
    obtain ⟨hne, hrest⟩ := not_or.1 (List.mem_cons.not.1 h)
    cases name with
    | none => exact absurd rfl hne
    | some name =>
      rw [removeNames]
      cases entityOf? name with
      | none => exact ih t hrest
      | some e =>
        dsimp only
        split
        · exact ih _ hrest
        · rfl

theorem watchersOf_removeNames (t : StateTable) (q : QueueId) (ns : List (Option String))
    (e : String) : (Misses (fun d ↦ q ∈ (t.watchersOf d).map (·.1)) (entities ns) e →
      (t.removeNames q ns).1.watchersOf e = t.watchersOf e) ∧
    (¬ Misses (fun d ↦ q ∈ (t.watchersOf d).map (·.1)) (entities ns) e →
      (t.removeNames q ns).1.watchersOf e = (t.watchersOf e).filter (·.1 ≠ q)) := by
  have missed {es : List String} (h : e ∉ es) {has : String → Prop} : Misses has es e :=
    fun he ↦ absurd he h
  induction ns generalizing t with
  | nil => exact ⟨fun _ ↦ rfl, fun h ↦ absurd (missed List.not_mem_nil) h⟩
  | cons name ns ih =>
    cases name with
    | none => exact ⟨fun _ ↦ rfl, fun h ↦ absurd (missed List.not_mem_nil) h⟩
    | some name =>
      rw [removeNames, entities_some]
      cases entityOf? name with
      | none => exact ih t
      | some d =>
        rw [Option.toList_some, List.singleton_append]
        dsimp only
        split
        · rename_i hd
          replace hd : q ∈ (t.watchersOf d).map (·.1) := by simpa using hd
          -- the table with which the walk goes on
          generalize ht' : ({ t with
            watchers := assign t.watchers d ((t.watchersOf d).filter (·.1 ≠ q)) } : StateTable) = t'
          have hof (e' : String) : t'.watchersOf e' =
              if e' = d then (t.watchersOf d).filter (·.1 ≠ q) else t.watchersOf e' := by
            rw [← ht', lookup_assign_filter]
          have hhas : (fun d' ↦ q ∈ (t'.watchersOf d').map (·.1)) =
              fun d' ↦ d' ≠ d ∧ q ∈ (t.watchersOf d').map (·.1) := by
            funext d'
            rw [hof]
            split
            · rename_i heq
              simp [heq]
            · rename_i hne
              simp [hne]
          obtain ⟨hmissed, htaken⟩ := ih t'
          rw [hhas] at hmissed htaken
          rw [misses_cons hd]
          refine ⟨fun h ↦ ?_, fun h ↦ ?_⟩
          · rw [hmissed h.2, hof, if_neg h.1]
          · by_cases hmisses : Misses (fun d' ↦ d' ≠ d ∧ q ∈ (t.watchersOf d').map (·.1))
              (entities ns) e
            · grind
            · rw [htaken hmisses, hof]
              split
              · rename_i heq
                rw [heq, List.filter_filter]
                simp
              · rfl
        · rename_i hd
          exact ⟨fun _ ↦ rfl, fun h ↦ absurd (misses_cons_of_not (by simpa using hd)) h⟩

theorem watchersOf_remove_add {names : Watched}
    (hq : ∀ e ∈ entities names.toList, q ∉ (t.watchersOf e).map (·.1)) (e : String) :
    (Stranded (entities names.toList) e →
      ((t.add names q).1.remove names q).1.watchersOf e = t.watchersOf e ++ [(q, names)]) ∧
    (¬ Stranded (entities names.toList) e →
      ((t.add names q).1.remove names q).1.watchersOf e = t.watchersOf e) := by
  obtain ⟨hmissed, htaken⟩ := (t.add names q).1.watchersOf_removeNames q names.toList e
  have hof (d : String) : (t.add names q).1.watchersOf d =
      if d ∈ entities names.toList then assign (t.watchersOf d) q names else t.watchersOf d :=
    t.watchersOf_addNames names q names.toList d
  rw [hof] at hmissed htaken
  by_cases he : e ∈ entities names.toList
  · have hregistered : ∀ d ∈ entities names.toList,
        q ∈ ((t.add names q).1.watchersOf d).map (·.1) := by
      intro d hd
      rw [hof, if_pos hd, mem_keys_assign]
      exact .inl rfl
    rw [misses_iff_stranded hregistered he, if_pos he, assign_of_not_mem (hq e he)]
      at hmissed htaken
    refine ⟨hmissed, fun h ↦ (htaken h).trans ?_⟩
    rw [List.filter_append, filter_of_not_mem (hq e he)]
    simp
  · rw [if_neg he] at hmissed
    exact ⟨fun h ↦ absurd h.mem he, fun _ ↦ hmissed fun h ↦ absurd h he⟩

/-- **Taking back a registration.** A queue that was registered under none of the entities of some
names is registered with them and taken away with them. If no name is missing neither fails, and the
last values stay. Afterwards each entity has the queues that it had, with their names, and a
stranded entity has the queue too. So all is as before if and only if no entity is stranded. -/
theorem remove_add_watchersOf (t : StateTable) (names : Watched) (q : QueueId)
    (hq : ∀ e ∈ entities names.toList, q ∉ (t.watchersOf e).map (·.1)) :
    (none ∉ names.toList → (t.add names q).2 = none ∧ ((t.add names q).1.remove names q).2 = none) ∧
    ((t.add names q).1.remove names q).1.last = t.last ∧
    (∀ e, (Stranded (entities names.toList) e →
        ((t.add names q).1.remove names q).1.watchersOf e = t.watchersOf e ++ [(q, names)]) ∧
      (¬ Stranded (entities names.toList) e →
        ((t.add names q).1.remove names q).1.watchersOf e = t.watchersOf e)) ∧
    ((∀ e, ((t.add names q).1.remove names q).1.watchersOf e = t.watchersOf e) ↔
      ∀ e, ¬ Stranded (entities names.toList) e) := by
  refine ⟨fun hnone ↦ ⟨?_, removeNames_fault _ q hnone⟩, ?_, watchersOf_remove_add hq, ?_⟩
  · rw [add, addNames_fault, if_neg hnone]
  · rw [remove, (shrinks_removeNames _ q _).last, add, addNames_last]
  · refine ⟨fun hsame e hstranded ↦ ?_, fun hnone e ↦ (watchersOf_remove_add hq e).2 (hnone e)⟩
    have hleft := (watchersOf_remove_add hq e).1 hstranded
    rw [hsame e] at hleft
    simpa using congrArg List.length hleft

/-! ### Two names of one entity -/

def withFormer : Watched := .names [some "d.x", some "d.x.old", some "e.y"]

def waitedFor : StateTable where
  watchers := [("d.x", [(7, .single "d.x")]), ("e.y", [(7, .single "e.y")])]

theorem remove_add_watchersOf_withFormer :
    (∀ e ∈ entities withFormer.toList, 0 ∉ (waitedFor.watchersOf e).map (·.1)) ∧
      Stranded (entities withFormer.toList) "e.y" ∧
      ((waitedFor.add withFormer 0).1.remove withFormer 0).1.watchersOf "e.y" =
        [(7, .single "e.y"), (0, withFormer)] := by
  have hq : ∀ e ∈ entities withFormer.toList, 0 ∉ (waitedFor.watchersOf e).map (·.1) := by decide
  have hstranded : Stranded (entities withFormer.toList) "e.y" :=
    ⟨["d.x"], "d.x", ["e.y"], by decide, by decide, by decide, by decide⟩
  exact ⟨hq, hstranded, ((remove_add_watchersOf waitedFor withFormer 0 hq).2.2.1 "e.y").1 hstranded⟩

/-- The queue is taken away from the entity that was named twice and stays with the other. -/
theorem stranded_queue_stays :
    (waitedFor.add withFormer 0).1.watchers =
        [("d.x", [(7, .single "d.x"), (0, withFormer)]),
          ("e.y", [(7, .single "e.y"), (0, withFormer)])] ∧
      ((waitedFor.add withFormer 0).1.remove withFormer 0).1.watchers =
        [("d.x", [(7, .single "d.x")]), ("e.y", [(7, .single "e.y"), (0, withFormer)])] := by
  decide

end StateTable

end TriggerScript.Notify
