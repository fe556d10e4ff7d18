import TriggerScript.Proofs.Notify.Withdrawal
import TriggerScript.Proofs.Trigger.Mentioned
import TriggerScript.Proofs.Trigger.Rounds

/-!
# The former value of an entity

A change of `d.n` gives new values to two names, `d.n` and `d.n.old`. The table files values under
entities only (`StateTable.EntitiesOnly`), so the former value is never filed
(`Evolved.entitiesOnly`), and a message is without it even for a queue that asked for it
(`change_told_without_former`).
-/

namespace TriggerScript

open Notify (QueueId Watched entities entityOf? parts messagesOf reading?)

namespace Notify

/-! ### Names of two parts -/

theorem splitAtChar_of_mem {sep : Char} {cs piece : List Char}
    (h : piece ∈ Text.splitAtChar sep cs) : Text.splitAtChar sep piece = [piece] := by
  fun_induction Text.splitAtChar sep cs generalizing piece <;> grind [Text.splitAtChar]

theorem parts_of_mem {name part : String} (h : part ∈ parts name) : parts part = [part] := by
  obtain ⟨piece, hpiece, rfl⟩ := List.mem_map.1 h
  rw [parts, String.toList_ofList, splitAtChar_of_mem hpiece]
  rfl

theorem length_parts_of_entityOf? {name e : String} (h : entityOf? name = some e) :
    (parts e).length = 2 := by
  obtain ⟨domain, entity, rest, hparts, rfl⟩ := entityOf?_eq_some h
  have hdomain : parts domain = [domain] := parts_of_mem (hparts ▸ List.mem_cons_self)
  have hentity : parts entity = [entity] :=
    parts_of_mem (hparts ▸ List.mem_cons_of_mem _ List.mem_cons_self)
  rw [parts_dot, hdomain, hentity]
  rfl

theorem length_parts_of_mem_entities {ns : List (Option String)} {e : String}
    (h : e ∈ entities ns) : (parts e).length = 2 := by
  obtain ⟨name, -, hname⟩ := List.mem_filterMap.1 h
  obtain ⟨name, rfl, hname⟩ := Option.bind_eq_some_iff.1 hname
  exact length_parts_of_entityOf? hname

theorem length_parts_former (name : String) :
    (parts (name ++ ".old")).length = (parts name).length + 1 := by
  have hold : name ++ ".old" = name ++ "." ++ "old" := by rw [String.append_assoc]; rfl
  rw [hold, parts_dot, List.length_append]
  rfl

/-! ### Tables without former values -/

namespace StateTable

/-- Queues and values are filed under names of two parts. -/
structure EntitiesOnly (t : StateTable) : Prop where
  known : ∀ e, (t.watchers.lookup e).isSome → (parts e).length = 2
  last : ∀ n, (t.last.lookup n).isSome → (parts n).length = 2
  nodup : ∀ e, ((t.watchersOf e).map (·.1)).Nodup

theorem isSome_lookup_collect (t : StateTable) (values : List (String × Value)) (told : Watchers)
    {n : String} (h : ((t.collect values told).1.last.lookup n).isSome) :
    (t.last.lookup n).isSome ∨ (t.watchers.lookup n).isSome := by
  fun_induction collect t values told with
  | case1 => exact .inl h
  | case2 => simp_all
  | case3 => grind [lookup_assign]

namespace EntitiesOnly

variable {t : StateTable}

theorem empty : EntitiesOnly {} where
  known e h := by simp at h
  last n h := by simp at h
  nodup e := List.nodup_nil

theorem add (h : t.EntitiesOnly) (names : Watched) (q : QueueId) :
    (t.add names q).1.EntitiesOnly where
  known e he := by
    rw [StateTable.add, lookup_addNames] at he
    split at he
    · rename_i hmem
      exact length_parts_of_mem_entities hmem
    · exact h.known e he
  last n hn := by
    rw [StateTable.add, addNames_last] at hn
    exact h.last n hn
  nodup e := by
    rw [StateTable.add, watchersOf_addNames]
    split
    · exact nodup_assign (h.nodup e) q names
    · exact h.nodup e

theorem remove (h : t.EntitiesOnly) (names : Watched) (q : QueueId) :
    (t.remove names q).1.EntitiesOnly := by
  have hshrinks := t.shrinks_removeNames q names.toList
  obtain hof := t.watchersOf_removeNames q names.toList
  refine ⟨fun e he ↦ h.known e (hshrinks.known e ▸ he), fun n hn ↦ h.last n (hshrinks.last ▸ hn),
    fun e ↦ ?_⟩
  by_cases hmisses : Misses (fun d ↦ q ∈ (t.watchersOf d).map (·.1)) (entities names.toList) e
  · rw [StateTable.remove, (hof e).1 hmisses]
    exact h.nodup e
  · rw [StateTable.remove, (hof e).2 hmisses]
    exact (List.filter_sublist.map _).nodup (h.nodup e)

theorem update (h : t.EntitiesOnly) (values : List (String × Value)) :
    (t.update values).1.EntitiesOnly := by
  have hwatchers : (t.update values).1.watchers = t.watchers := t.collect_watchers values []
  refine ⟨fun e he ↦ h.known e (hwatchers ▸ he), fun n hn ↦ ?_, fun e ↦ ?_⟩
  · exact (t.isSome_lookup_collect values [] hn).elim (h.last n) (h.known n)
  · rw [watchersOf, hwatchers]
    exact h.nodup e

end EntitiesOnly

theorem foldl_assign_of_nodup {told ws : Watchers} (h : ((told ++ ws).map (·.1)).Nodup) :
    ws.foldl (fun told w ↦ assign told w.1 w.2) told = told ++ ws := by
  induction ws generalizing told with
  | nil => exact (List.append_nil told).symm
  | cons p ws ih =>
    have hnew : p.1 ∉ told.map (·.1) := by grind
    rw [List.foldl_cons, assign_of_not_mem hnew, ih (by grind)]
    simp

theorem EntitiesOnly.collect_change {t : StateTable} (h : t.EntitiesOnly) {entity : String}
    (hentity : (parts entity).length = 2) (new old : Value) {ws : Watchers}
    (hws : t.watchers.lookup entity = some ws) :
    t.collect [(entity, new), (entity ++ ".old", old)] [] =
      ({ t with last := TriggerScript.assign t.last entity new }, ws) := by
  have hformer : t.watchers.lookup (entity ++ ".old") = none := by
    cases hl : t.watchers.lookup (entity ++ ".old") with
    | none => rfl
    | some ws =>
      have := h.known (entity ++ ".old") (by rw [hl]; rfl)
      rw [length_parts_former] at this
      omega
  have hnodup : (ws.map (·.1)).Nodup := by
    have := h.nodup entity
    rwa [watchersOf, hws] at this
  rw [collect, hws]
  dsimp only
  rw [collect, hformer, collect, @foldl_assign_of_nodup [] ws hnodup]
  rfl

end StateTable

end Notify

/-! ### Runs -/

theorem Act.entitiesOnly {E : Owned} {p : Site} {w w' : World} (h : Act E p w w')
    (hw : w.stateTable.EntitiesOnly) : w'.stateTable.EntitiesOnly := by
  induction h with
  | trans _ _ ih₁ ih₂ => exact ih₂ (ih₁ hw)
  | watchStates w names _ => exact hw.add names _
  | unwatchStates w names _ => exact hw.remove names _
  | _ => exact hw

theorem entitiesOnly_permissive :
    Permissive fun w w' ↦ w.stateTable.EntitiesOnly → w'.stateTable.EntitiesOnly where
  refl _ h := h
  trans _ _ _ h h' := h' ∘ h
  act _ _ _ _ h := h.entitiesOnly
  starts _ _ _ _ h := h
  frame _ _ _ _ h := h
  queues _ _ h := h
  states _ values h := h.update values

/-- The worlds that registrations, withdrawals and changes lead to. -/
inductive Evolved : World → Prop where
  | new {w : World} (h : w.stateTable = {}) : Evolved w
  | register {w w' : World} {r : Except Stop Unit} (before : Evolved w) (names : Watched)
      (q : QueueId) (h : Activity.watchStates names q w = .ended r w') : Evolved w'
  | withdraw {w w' : World} {r : Except Stop Unit} (before : Evolved w) (names : Watched)
      (q : QueueId) (h : Activity.unwatchStates names q w = .ended r w') : Evolved w'
  | change {w w' : World} {r : Except Stop Unit} (before : Evolved w) (e : Event)
      (h : Activity.onStateChanged e w = .ended r w') : Evolved w'
  | elsewhere {w w' : World} (before : Evolved w) (h : w'.stateTable = w.stateTable) : Evolved w'

theorem Evolved.entitiesOnly {w : World} (h : Evolved w) : w.stateTable.EntitiesOnly := by
  induction h with
  | new h => exact h ▸ .empty
  | register _ names q h ih =>
    rw [Notify.watchStates_eq] at h
    cases h
    exact ih.add names q
  | withdraw _ names q h ih =>
    rw [Notify.unwatchStates_eq] at h
    cases h
    exact ih.remove names q
  | @change w _ _ _ e h ih =>
    have hgrants := entitiesOnly_permissive.onStateChanged e w
    rw [h] at hgrants
    exact hgrants.1 ih
  | elsewhere _ h ih => exact h ▸ ih

/-! ### A change -/

/-- The event tells of a change of the entity from `old` to `new`. -/
structure Event.Reports (s : Store) (e : Event) (entity : String) (new old : Value) : Prop where
  entity : Entries.get? s e.data (.text "entity_id") = some (.text entity)
  new : ∃ text r, Entries.get? s e.data (.text "new_state") = some (.entityState text r) ∧
    new = .text text
  old : Entries.get? s e.data (.text "old_state") = some .none ∧ old = .none ∨
    ∃ text r, Entries.get? s e.data (.text "old_state") = some (.entityState text r) ∧
      old = .text text

/-- What a message tells of a change. -/
def changeEntries (entity : String) (new old : Value) : Entries :=
  [(.text "trigger_type", .text "state"), (.text "var_name", .text entity), (.text "value", new),
    (.text "old_value", old)]

namespace Activity

variable {e : Event} {w : World} {v old : Value}

theorem entryOf_eq {key : String} (h : Entries.get? w.store e.data (.text key) = some v) :
    entryOf e key w = .ended (.ok v) w := by
  have hread : Activity.read (·.store) w = .ended (.ok w.store) w := rfl
  rw [entryOf, bind_of_ended hread, h]
  rfl

theorem onStateChanged_eq {entity : String} {new : Value} (h : e.Reports w.store entity new old) :
    onStateChanged e w = tellStates [(entity, new), (entity ++ ".old", old)]
      (.dict w.store.objects.size)
      { w with store := w.store.push (.dict (changeEntries entity new old)) } := by
  obtain ⟨text, r, hnew, rfl⟩ := h.new
  have htext : stateText (.entityState text r) w = .ended (.ok (.text text)) w := rfl
  rw [onStateChanged, bind_of_ended (entryOf_eq h.entity), bind_of_ended (entryOf_eq hnew),
    bind_of_ended htext]
  rcases h.old with ⟨hold, rfl⟩ | ⟨former, r', hold, rfl⟩
  · have hformer : formerText .none w = .ended (.ok .none) w := rfl
    rw [bind_of_ended (entryOf_eq hold), bind_of_ended hformer]
    rfl
  · have hformer : formerText (.entityState former r') w = .ended (.ok (.text former)) w := rfl
    rw [bind_of_ended (entryOf_eq hold), bind_of_ended hformer]
    rfl

end Activity

/-! ### What an expression is given -/

theorem Interp.mem_keys_tableEntries {values : List (String × Value)} {name : String} :
    some name ∈ (tableEntries (values.map fun p ↦ (.text p.1, p.2))).map (·.1) ↔
      name ∈ values.map (·.1) := by
  induction values with
  | nil => simp [tableEntries]
  | cons p values ih =>
    have hcons : tableEntries ((p :: values).map fun p ↦ (.text p.1, p.2)) =
        (some p.1, p.2) :: tableEntries (values.map fun p ↦ (.text p.1, p.2)) := rfl
    rw [hcons, List.map_cons, List.mem_cons, ih, List.map_cons, List.mem_cons, Option.some.injEq]

theorem World.nameValue_give {w : World} {c : ContextId} {entries : List (Key × Value)}
    {name : String} (h : some name ∉ entries.map (·.1)) (ctx : Context) :
    (w.give c entries).nameValue ctx name = w.nameValue ctx name := by
  rcases w.give_cases c entries with heq | ⟨-, heq⟩
  · rw [heq]
  · rw [heq]
    have htable (t : TableId) :
        ((w.updateTable (w.context c).locals (·.putAll entries)).table t).get? (some name) =
          (w.table t).get? (some name) :=
      get?_updateTable (fun T ↦ T.get?_putAll_of_not_mem h) _
    unfold nameValue bound? suspendedWith? Table.contains
    simp only [htable]
    rfl

/-! ### What is told -/

namespace Notify

open StateTable Interp

variable {w : World} {e : Event} {entity : String} {new old : Value}

theorem lookup_update_change (hrun : Evolved w) (hentity : (parts entity).length = 2)
    (new old : Value) {q : QueueId} {names : Watched}
    (hq : (q, names) ∈ w.stateTable.watchersOf entity) :
    let t := w.stateTable.update [(entity, new), (entity ++ ".old", old)]
    t.2.lookup q = some (t.1.lastValues names.carried) ∧ t.1.last.lookup entity = some new := by
  obtain ⟨ws, hws⟩ : ∃ ws, w.stateTable.watchers.lookup entity = some ws := by
    cases hl : w.stateTable.watchers.lookup entity with
    | none => simp [watchersOf, hl] at hq
    | some ws => exact ⟨ws, rfl⟩
  have hcollect := hrun.entitiesOnly.collect_change hentity new old hws
  rw [watchersOf, hws, Option.getD_some] at hq
  refine ⟨?_, ?_⟩
  · rw [lookup_eq_some_iff_mem (nodup_update ..), StateTable.update, hcollect]
    exact List.mem_map.2 ⟨(q, names), hq, rfl⟩
  · rw [StateTable.update, hcollect, lookup_assign, if_pos rfl]

theorem lookup_last_former {t : StateTable} (ht : t.EntitiesOnly)
    (hentity : (parts entity).length = 2) : t.last.lookup (entity ++ ".old") = none := by
  by_contra hsome
  have hparts := ht.last _ (Option.isSome_iff_ne_none.2 hsome)
  rw [length_parts_former] at hparts
  omega

/-- **A change is told without the former value.** After any run, a reported change of an entity
sends one message to each queue that is registered under the entity. The message has the new value
if the entity is among the queue's names, and it does not have the former value, though what it says
about the change does. So an expression sees in the name of the former value what it would see
without the message. -/
theorem change_told_without_former (hrun : Evolved w) (hentity : (parts entity).length = 2)
    (h : e.Reports w.store entity new old) :
    ∃ w', Activity.onStateChanged e w = .ended (.ok ()) w' ∧
      ∀ q names, (q, names) ∈ w.stateTable.watchersOf entity → q < w.queues.size →
        ∃ m vars about, messagesOf w' q = messagesOf w q ++ [m] ∧
          reading? w'.store m = some (vars, .dict about) ∧
          Entries.get? w'.store vars (.text (entity ++ ".old")) = none ∧
          (some entity ∈ names.carried → Entries.get? w'.store vars (.text entity) = some new) ∧
          w'.store.dictAt about = changeEntries entity new old ∧
          ∀ (u : World) (c : ContextId),
            (u.give c (tableEntries vars)).nameValue (u.context c) (entity ++ ".old") =
              u.nameValue (u.context c) (entity ++ ".old") := by
  obtain ⟨w', heach, -, hstore, -, hmessages⟩ := each_tell (.dict w.store.objects.size)
    (w.stateTable.nodup_update [(entity, new), (entity ++ ".old", old)])
    { w with
      store := w.store.push (.dict (changeEntries entity new old))
      stateTable := (w.stateTable.update [(entity, new), (entity ++ ".old", old)]).1 }
  refine ⟨w', (Activity.onStateChanged_eq h).trans heach, fun q names hq hlt ↦ ?_⟩
  obtain ⟨news, hnews, hall⟩ := hmessages q hlt
  obtain ⟨hlookup, hlast⟩ := lookup_update_change hrun hentity new old hq
  have hformer :=
    lookup_last_former (hrun.entitiesOnly.update [(entity, new), (entity ++ ".old", old)]) hentity
  generalize w.stateTable.update [(entity, new), (entity ++ ".old", old)] =
    t at hlookup hlast hformer hall
  rw [hlookup, Option.toList_some, List.forall₂_cons_left_iff] at hall
  obtain ⟨m, rest, hm, hrest, rfl⟩ := hall
  rw [List.forall₂_nil_left_iff] at hrest
  subst hrest
  have hvars : (t.1.lastValues names.carried).lookup (entity ++ ".old") = none := by
    rw [lookup_lastValues, hformer, ite_self]
  refine ⟨m, _, _, hnews, hm.reading_eq, ?_, fun hmem ↦ ?_, ?_, fun u c ↦ World.nameValue_give ?_ _⟩
  · rw [get?_values, hvars]
  · rw [get?_values, lookup_lastValues, if_pos hmem, hlast]
  · rw [Store.dictAt, hstore _ _ (get?_push_size _ _)]
  · rw [mem_keys_tableEntries]
    intro hmem
    obtain ⟨p, hp, heq⟩ := List.mem_map.1 hmem
    have := List.lookup_eq_none_iff.1 hvars p hp
    simp [heq] at this

/-! ### A light that is watched with its former value -/

def hallWatched : World where
  start := default
  tables := #[{}]
  queues := #[{ name := "hall" }]
  host := { states := [("light.hall", { text := "on", attributes := [] })] }
  stateTable := (({} : StateTable).add (.names (twoQueues 0)) 0).1

def hallOn : Event where
  type := "state_changed"
  data := [(.text "entity_id", .text "light.hall"), (.text "old_state", .entityState "off" 0),
    (.text "new_state", .entityState "on" 0)]

theorem evolved_hallWatched : Evolved hallWatched :=
  .register (.new (w := { hallWatched with stateTable := {} }) rfl) (.names (twoQueues 0)) 0
    (watchStates_eq ..)

theorem reports_hallOn : hallOn.Reports hallWatched.store "light.hall" (.text "on")
    (.text "off") where
  entity := rfl
  new := ⟨"on", 0, rfl, rfl⟩
  old := .inr ⟨"off", 0, rfl, rfl⟩

theorem change_told_without_former_hall :
    Evolved hallWatched ∧ (parts "light.hall").length = 2 ∧
      hallOn.Reports hallWatched.store "light.hall" (.text "on") (.text "off") ∧
      ∃ w', Activity.onStateChanged hallOn hallWatched = .ended (.ok ()) w' ∧
        ∃ m vars about, messagesOf w' 0 = [m] ∧ reading? w'.store m = some (vars, .dict about) ∧
          Entries.get? w'.store vars (.text "light.hall") = some (.text "on") ∧
          Entries.get? w'.store vars (.text "light.hall.old") = none := by
  refine ⟨evolved_hallWatched, by decide, reports_hallOn, ?_⟩
  obtain ⟨w', hend, hqueues⟩ :=
    change_told_without_former evolved_hallWatched (by decide) reports_hallOn
  obtain ⟨m, vars, about, hm, hreading, hformer, hnew, -, -⟩ :=
    hqueues 0 (.names (twoQueues 0)) (by decide) (by decide)
  exact ⟨w', hend, m, vars, about, hm, hreading, hnew (by decide), hformer⟩

def metWhenTold (condition : String) : Activity Bool := do
  Activity.onStateChanged hallOn
  let expr ← Activity.triggerExpression "f" "state_trigger" 0 (.text condition)
  let message ← Activity.unpack (← Activity.read fun w ↦ (messagesOf w 0).headD .none)
  let told ← Activity.unpackIfGiven message.2
  full.holds expr told.1

/-- The light was off, the queue has asked for its former value, and yet a condition does not see
it. -/
theorem former_value_unseen :
    some "light.hall.old" ∈ twoQueues 0 ∧
      (metWhenTold "light.hall == 'on'" hallWatched).result? = some true ∧
      (metWhenTold "light.hall.old == 'off'" hallWatched).result? = some false := by
  decide +kernel

end Notify

end TriggerScript
