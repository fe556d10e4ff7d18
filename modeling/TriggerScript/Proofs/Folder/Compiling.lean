import TriggerScript.Proofs.Folder.Registry

/-!
# Compiling, function by function

What compiling gives, from the inside out: the decorators of a function (`decorate_finishes`,
`checkCounts_finishes`), a function (`compileFunction_finishes`), and functions and files with their
roll. Every run has a roll (`finishes_iff`), and the result is what the roll says (`registers`). A
script may pause while it is evaluated, so all of this is about runs to their end, with others at
work in the pauses (`others`).
-/

namespace TriggerScript

open Activity Published TriggerKind

def TriggerConfig.source (cfg : TriggerConfig) : TriggerKind → Value
  | .timeTrigger => cfg.timeTrigger
  | .stateTrigger => cfg.stateTrigger
  | .eventTrigger => cfg.eventTrigger
  | .stateActive => cfg.stateActive
  | .timeActive => cfg.timeActive

/-- The trigger is the one that the decorators of the function ask for. -/
structure Published.Fits (f : Published) (t : Trigger) : Prop where
  action : t.action = some f.ref
  hasTrigger : t.hasTrigger = f.waits
  timeTrigger : t.timeTrigger.isNone = (f.arguments .timeTrigger).isEmpty
  eventTrigger : t.eventTrigger.isNone = (f.arguments .eventTrigger).isEmpty
  stateExpr : t.stateExpr.isNone = (f.arguments .stateTrigger).isEmpty
  watched : t.stateExpr = none → t.watched = none
  activeExpr : t.activeExpr.isNone = (f.arguments .stateActive).isEmpty
  timeActive : t.timeActive.isNone = (f.arguments .timeActive).isEmpty

/-! ### Going through the decorators -/

namespace Decoration

theorem lookup_add (d : Decoration) (k : TriggerKind) (args : List Value) (k' : TriggerKind) :
    (d.add k args).lookup k' =
      if k' = k then some ((d.lookup k).getD [] ++ args) else d.lookup k' := by
  induction d with
  | nil => by_cases h : k' = k <;> simp_all [add, List.lookup_cons, beq_false_of_ne]
  | cons p rest ih =>
    by_cases h₁ : p.1 = k <;> by_cases h : k' = p.1 <;> grind [add]

theorem isEmpty_iff {d : Decoration} : d.isEmpty ↔ ∀ k, d.lookup k = none := by
  cases d with
  | nil => simp
  | cons p rest => simpa using ⟨p.1, by simp⟩

theorem lookup_without (d : Decoration) (k k' : TriggerKind) :
    (d.without k).lookup k' = if k' = k then none else d.lookup k' := by
  by_cases h : k' = k
  · subst h
    rw [if_pos rfl, without]
    exact lookup_eq_none_of_not_mem (by simp)
  · rw [if_neg h, without, lookup_filter_of_ne _ h]

theorem mistaken?_without (d : Decoration) {k k' : TriggerKind} (h : k' ≠ k) :
    (d.without k).mistaken? k' = d.mistaken? k' := by
  rw [mistaken?, lookup_without, if_neg h, mistaken?]

def take (d : Decoration) (p : String × Option (List Value)) : Decoration :=
  match ofWord? p.1 with
  | some k => d.add k (p.2.getD [])
  | none => d

theorem lookup_foldl_take (decorators : List (String × Option (List Value))) (d : Decoration)
    (k : TriggerKind) :
    (decorators.foldl take d).lookup k = (d.lookup k).merge (· ++ ·) (given decorators k) := by
  induction decorators generalizing d with
  | nil => simp [given]
  | cons p rest ih =>
    obtain ⟨word, args⟩ := p
    rw [List.foldl_cons, ih, take, given]
    cases hword : ofWord? word with
    | none => simp
    | some k' =>
      simp only [lookup_add, Option.some.injEq]
      by_cases hk : k = k'
      · subst hk
        cases d.lookup k <;> cases given rest k <;> simp
      · simp [hk, Ne.symm hk]

theorem isSome_mistaken? (d : Decoration) (k : TriggerKind) :
    (d.mistaken? k).isSome = (d.lookup k).any fun args ↦
      !k.counts?.all fun counts ↦ args.isEmpty || counts.contains args.length := by
  unfold mistaken?
  cases d.lookup k with
  | none => rfl
  | some args =>
    cases k.counts? with
    | none => rfl
    | some counts => grind

end Decoration

theorem Host.service?_register (h : Host) (domain name : String) (s : Service) (name' : String) :
    (h.register domain name s).service? domain name' =
      if serviceKey domain name' = serviceKey domain name then some s
        else h.service? domain name' :=
  lookup_assign h.services _ s _

namespace Activity

variable {f : Published} {schema : Value} {w w' : World}

theorem registers_publish (hoffered : f.offered = true) {r : Except Stop Unit}
    (h : (publish f schema w).Finishes others r w') : r = .ok () ∧ w.Registers [f] w' := by
  obtain ⟨rfl, rfl⟩ := Step.finishes_ended.1 h
  refine ⟨rfl, fun name ↦ ?_, rfl, rfl, fun t trigger ht ↦ ⟨trigger.task, ht⟩⟩
  refine (w.host.service?_register serviceDomain f.name f.service name).trans ?_
  rw [serviceOf?_singleton, answers, hoffered, Bool.true_and]
  by_cases hkey : Host.serviceKey serviceDomain name = Host.serviceKey serviceDomain f.name
  · simp [hkey]
  · simp [hkey, Ne.symm hkey]

theorem ofWord?_service : ofWord? "service" = none := by decide

section Decorators

variable (f schema) {p : String × Option (List Value)} (rest : List (String × Option (List Value)))
  (d : Decoration) (services : List String)

theorem decorate_of_kind {k : TriggerKind} (hword : ofWord? p.1 = some k) :
    decorate f schema (p :: rest) d services =
      decorate f schema rest (d.add k (p.2.getD [])) services := by
  obtain ⟨word, args⟩ := p
  rw [decorate, hword]

theorem decorate_of_asking (hasks : asksService p = true) :
    decorate f schema (p :: rest) d services = (do
      publish f schema
      decorate f schema rest d
        (if services.contains f.name then services else services ++ [f.name])) := by
  obtain ⟨word, args⟩ := p
  obtain ⟨hservice, hbare⟩ := Bool.and_eq_true_iff.1 hasks
  obtain rfl : word = "service" := beq_iff_eq.1 hservice
  obtain rfl : args = none := Option.isNone_iff_eq_none.1 hbare
  rw [decorate, ofWord?_service]
  rfl

theorem decorate_of_other (hword : ofWord? p.1 = none)
    (hplain : asksService p = false) : ∃ level text, decorate f schema (p :: rest) d services = (do
      sayOfFolder level text
      decorate f schema rest d services) := by
  obtain ⟨word, args⟩ := p
  rw [decorate, hword]
  dsimp only
  split
  · rename_i hservice
    have hargs : args.isSome = true := by
      rw [asksService, hservice, Bool.true_and, Option.isNone_eq_false_iff] at hplain
      exact hplain
    rw [if_pos hargs]
    exact ⟨_, _, rfl⟩
  · exact ⟨_, _, rfl⟩

end Decorators

variable {d : Decoration} {s s' : Store} {globals : TableId} {cfg : TriggerConfig}

theorem decorate_finishes {decorators : List (String × Option (List Value))}
    {services : List String} {r : Except Stop (Decoration × List String)}
    (hoffered : decorators.any asksService = true → f.offered = true)
    (h : (decorate f schema decorators d services w).Finishes others r w') :
    ∃ services', r = .ok (decorators.foldl Decoration.take d, services') ∧
      w.Registers (if decorators.any asksService then [f] else []) w' ∧
      ∀ name, name ∈ services' ↔ name ∈ services ∨ decorators.any asksService ∧ name = f.name := by
  induction decorators generalizing d services w with
  | nil =>
    obtain ⟨rfl, rfl⟩ := Step.finishes_ended.1 h
    exact ⟨services, rfl, World.Aside.refl w, by simp⟩
  | cons p rest ih =>
    have hrest (hany : rest.any asksService = true) : f.offered = true := hoffered (by simp [hany])
    rw [List.foldl_cons, List.any_cons, Decoration.take]
    cases hword : ofWord? p.1 with
    | some k =>
      rw [decorate_of_kind f schema rest d services hword] at h
      have hplain : asksService p = false := by
        rw [asksService, Bool.and_eq_false_iff]
        refine .inl (beq_eq_false_iff_ne.2 fun hservice ↦ ?_)
        rw [hservice, ofWord?_service] at hword
        cases hword
      rw [hplain, Bool.false_or]
      exact ih hrest h
    | none =>
      cases hasks : asksService p with
      | false =>
        obtain ⟨level, text, hother⟩ := decorate_of_other f schema rest d services hword hasks
        rw [hother] at h
        obtain ⟨services', hr, hreg, hmem⟩ := ih (w := w.say "pyscript" level text) hrest h
        have hsay : w.Aside (w.say "pyscript" level text) := .of_eq rfl rfl rfl
        exact ⟨services', hr, hsay.after hreg, hmem⟩
      | true =>
        rw [decorate_of_asking f schema rest d services hasks] at h
        have hoff : f.offered = true := hoffered (by rw [List.any_cons, hasks, Bool.true_or])
        rcases h.of_bind with ⟨_, w₁, hpublish, h⟩ | ⟨e, hpublish, -⟩
        · obtain ⟨-, hreg₁⟩ := registers_publish hoff hpublish
          obtain ⟨services', hr, hreg, hmem⟩ := ih hrest h
          refine ⟨services', hr, (hreg₁.trans hreg).congr fun name ↦ ?_, fun name ↦ ?_⟩
          · -- once more makes no difference
            rw [Bool.true_or, if_pos rfl, serviceOf?_append]
            split
            · cases serviceOf? [f] name <;> rfl
            · rfl
          · grind
        · cases (registers_publish hoff hpublish).1

theorem checkCounts_finishes {kinds : List TriggerKind} {r : Except Stop Decoration}
    (h : (checkCounts f kinds d w).Finishes others r w') : w.Aside w' ∧ ∃ d', r = .ok d' ∧
      ∀ k, d'.lookup k = if k ∈ kinds ∧ (d.mistaken? k).isSome then none else d.lookup k := by
  induction kinds generalizing d w with
  | nil =>
    obtain ⟨rfl, rfl⟩ := Step.finishes_ended.1 h
    exact ⟨.refl w, d, rfl, by simp⟩
  | cons k rest ih =>
    rw [checkCounts] at h
    cases hmistaken : d.mistaken? k with
    | none =>
      rw [hmistaken] at h
      obtain ⟨haside, d', rfl, hlookup⟩ := ih h
      refine ⟨haside, d', rfl, fun k' ↦ ?_⟩
      by_cases hk : k' = k
      · subst hk
        simp [hlookup, hmistaken]
      · simp [hlookup, hk]
    | some n =>
      rw [hmistaken] at h
      obtain ⟨haside, d', rfl, hlookup⟩ := ih (d := d.without k) (w := w.say _ _ _) h
      have hsay {level : Level} {text : String} : w.Aside (w.say "pyscript" level text) :=
        .of_eq rfl rfl rfl
      refine ⟨hsay.after haside, d', rfl, fun k' ↦ ?_⟩
      by_cases hk : k' = k
      · subst hk
        simp [hlookup, hmistaken, Decoration.lookup_without]
      · simp [hlookup, hk, Decoration.lookup_without, Decoration.mistaken?_without d hk]

section Accepted

variable {d : Decoration} (hd : ∀ k, d.lookup k =
  if k ∈ checked ∧ ((f.body.decorators.foldl Decoration.take []).mistaken? k).isSome
  then none else (f.body.decorators.foldl Decoration.take []).lookup k)

include hd

theorem lookup_accepted (k : TriggerKind) :
    d.lookup k = if f.accepts k then given f.body.decorators k else none := by
  have hgiven : (f.body.decorators.foldl Decoration.take []).lookup k =
      given f.body.decorators k := by
    rw [Decoration.lookup_foldl_take]
    cases given f.body.decorators k <;> rfl
  have hchecked : k ∉ checked → k.counts? = none := by
    cases k <;> decide
  rw [hd, Decoration.isSome_mistaken?, hgiven, accepts]
  cases given f.body.decorators k with
  | none => simp
  | some args => grind

theorem isEmpty_accepted (hname : f.name ≠ reloadName) : d.isEmpty = !f.triggered := by
  have haccepts (k : TriggerKind) : (d.lookup k).isSome = f.accepts k := by
    rw [lookup_accepted hd]
    cases h : f.accepts k with
    | false => rfl
    | true =>
      obtain ⟨args, hargs, -⟩ := (Option.any_eq_true _ _).1 h
      rw [if_pos rfl, hargs]
      rfl
  have hall (k : TriggerKind) :
      k ∈ [timeTrigger, .stateTrigger, .eventTrigger, .stateActive, .timeActive] := by
    cases k <;> decide
  rw [Bool.eq_iff_iff, Decoration.isEmpty_iff, Bool.not_eq_true', triggered, Bool.and_eq_false_iff,
    bne_eq_false_iff_eq, or_iff_right hname, List.any_eq_false]
  refine ⟨fun h k _ ↦ ?_, fun h k ↦ ?_⟩
  · rw [← haccepts, h]
    decide
  · rw [← Option.not_isSome_iff_eq_none, haccepts]
    exact h k (hall k)

theorem getD_lookup_accepted (k : TriggerKind) : (d.lookup k).getD [] = f.arguments k := by
  rw [lookup_accepted hd, arguments]
  split <;> rfl

end Accepted

theorem ok_of_bind {α β : Type} {x : Op α} {g : α → Op β} {b : β}
    (h : (x >>= g).run.run s = (.ok b, s')) :
    ∃ a s₁, x.run.run s = (.ok a, s₁) ∧ (g a).run.run s₁ = (.ok b, s') := by
  change (ExceptT.bindCont g (x.run.run s).1).run (x.run.run s).2 = (.ok b, s') at h
  generalize x.run.run s = p at h ⊢
  obtain ⟨r, s₁⟩ := p
  cases r with
  | ok a => exact ⟨a, s₁, rfl, h⟩
  | error e => cases h

theorem isNone_value {k : TriggerKind} {v : Value} (h : (d.value k).run.run s = (.ok v, s')) :
    v.isNone = ((d.lookup k).getD []).isEmpty := by
  unfold Decoration.value at h
  split at h
  · rename_i hnone
    cases h
    rw [hnone]
    rfl
  · rename_i hnil
    cases h
    rw [hnil]
    rfl
  · rename_i args hne hsome
    obtain ⟨r, s₁, -, h⟩ := ok_of_bind h
    cases h
    rw [hsome]
    cases args with
    | nil => exact absurd rfl hne
    | cons a args => rfl

theorem config_finishes {r : Ref} {c : ContextId}
    (h : (op (d.config r c globals) w).Finishes others (.ok cfg) w') :
    cfg.action = some r ∧ ∀ k, (cfg.source k).isNone = ((d.lookup k).getD []).isEmpty := by
  have hrun : ∃ s, (d.config r c globals).run.run w.store = (.ok cfg, s) := by
    unfold op at h
    dsimp only at h
    generalize (d.config r c globals).run.run w.store = p at h ⊢
    obtain ⟨result, s⟩ := p
    cases result <;> cases h
    exact ⟨s, rfl⟩
  obtain ⟨s, h⟩ := hrun
  obtain ⟨_, _, hstate, h⟩ := ok_of_bind h
  obtain ⟨_, _, htime, h⟩ := ok_of_bind h
  obtain ⟨_, _, hevent, h⟩ := ok_of_bind h
  obtain ⟨_, _, hstateActive, h⟩ := ok_of_bind h
  obtain ⟨_, _, htimeActive, h⟩ := ok_of_bind h
  cases h
  refine ⟨rfl, fun k ↦ ?_⟩
  cases k with
  | timeTrigger => exact isNone_value htime
  | stateTrigger => exact isNone_value hstate
  | eventTrigger => exact isNone_value hevent
  | stateActive => exact isNone_value hstateActive
  | timeActive => exact isNone_value htimeActive

variable {α β : Type}

theorem Grants.finishes_bind {x : Activity α} {g : α → Activity β} {r : Except Stop β}
    (hx : x.Grants World.Aside) (h : ((x >>= g) w).Finishes others r w') :
    (∃ e, r = .error e ∧ w.Aside w') ∨
      ∃ a w₁, (x w).Finishes others (.ok a) w₁ ∧ w.Aside w₁ ∧ (g a w₁).Finishes others r w' := by
  rcases h.of_bind with ⟨a, w₁, hfirst, hsecond⟩ | ⟨e, hfirst, rfl⟩
  · exact .inr ⟨a, w₁, hfirst, hx.aside hfirst, hsecond⟩
  · exact .inl ⟨e, rfl, hx.aside hfirst⟩

theorem aside_newTrigger (name : String) (cfg : TriggerConfig) :
    (newTrigger name cfg).Grants World.Aside := by
  refine aside.bind (p := default) (aside.modifyGet _ fun w ↦ .addQueue w _) fun queue ↦
    aside.bind (aside_permissive.triggerExpression _ _ _ _) fun activeExpr ↦
    aside.bind (aside_permissive.triggerExpression _ _ _ _) fun stateExpr ↦
    aside.bind (aside_permissive.triggerStates _ _) fun watched ↦
    aside.bind (aside_permissive.triggerEvent _ _ _ _) fun eventExpr ↦ ?_
  exact grants_of_ended fun w ↦ ⟨_, _, rfl, .addTrigger w _⟩

theorem isNone_triggerExpression {trigger role : String} {source : Value} {c : Option ContextId}
    (h : (triggerExpression trigger role globals source w).Finishes others (.ok c) w') :
    c.isNone = source.isNone := by
  unfold triggerExpression at h
  split at h
  · cases h
    rfl
  · rename_i hne
    obtain ⟨e, w₁, -, h⟩ := h.of_bind_ok
    cases h
    cases source with
    | none => exact absurd rfl hne
    | _ => rfl

theorem newTrigger_finishes {name : String} {t : TriggerId}
    (h : (newTrigger name cfg w).Finishes others (.ok t) w') :
    w.triggers.size ≤ t ∧ ∃ trigger, w'.triggers[t]? = some trigger ∧
      ∀ f : Published, cfg.action = some f.ref →
        (∀ k, (cfg.source k).isNone = (f.arguments k).isEmpty) → f.Fits trigger := by
  obtain ⟨queue, w₁, hqueue, h⟩ := h.of_bind_ok
  obtain ⟨activeExpr, w₂, hactive, h⟩ := h.of_bind_ok
  obtain ⟨stateExpr, w₃, hstate, h⟩ := h.of_bind_ok
  obtain ⟨watched, w₄, hstates, h⟩ := h.of_bind_ok
  obtain ⟨eventExpr, w₅, hevent, h⟩ := h.of_bind_ok
  have hqueue : w.Aside w₁ := (aside.modifyGet (p := default) _ fun w ↦ .addQueue w _).aside hqueue
  have hsize : w.triggers.size ≤ w₅.triggers.size :=
    hqueue.after ((aside_permissive.triggerExpression _ _ _ _).aside hactive)
      |>.aside ((aside_permissive.triggerExpression _ _ _ _).aside hstate)
      |>.aside ((aside_permissive.triggerStates _ _).aside hstates)
      |>.aside ((aside_permissive.triggerEvent _ _ _ _).aside hevent) |>.size_le
  obtain ⟨heq, rfl⟩ := Step.finishes_ended.1 h
  cases heq
  refine ⟨hsize, _, Array.getElem?_push_size, fun f haction hsource ↦ ?_⟩
  have hwaits : f.waits =
      !(cfg.stateTrigger.isNone && cfg.timeTrigger.isNone && cfg.eventTrigger.isNone) := by
    simp [waits, ← hsource, TriggerConfig.source, Bool.or_assoc]
  refine ⟨haction, hwaits.symm, hsource .timeTrigger, hsource .eventTrigger, ?_, ?_, ?_,
    hsource .timeActive⟩
  · exact (isNone_triggerExpression hstate).trans (hsource .stateTrigger)
  · rintro rfl
    cases hstates
    rfl
  · exact (isNone_triggerExpression hactive).trans (hsource .stateActive)

end Activity

/-! ### What compiling gives -/

/-- The services are those before and, if the function is offered, its own. -/
def Published.Enlists (f : Published) (before services : List String) : Prop :=
  ∀ name, name ∈ services ↔ name ∈ before ∨ f.offered ∧ name = f.name

namespace World

variable {w w' : World} {roll roll' : List Published} {c : Compiled} {f : Published}

/-- The triggers and services of `c` are those of the roll. -/
structure Holds (w : World) (roll : List Published) (c : Compiled) : Prop where
  lists : w.Lists c.triggers
  names : (c.triggers.map (·.1)).Nodup
  absent : ∀ name, triggerOf? roll name = none → c.triggers.lookup name = none
  fits : ∀ name f, triggerOf? roll name = some f →
    ∃ i t, c.triggers.lookup name = some i ∧ w.triggers[i]? = some t ∧ f.Fits t
  services : ∀ name, name ∈ c.services ↔ ∃ f ∈ roll, f.offered ∧ f.name = name

namespace Holds

theorem nothing (w : World) : w.Holds [] {} where
  lists := ⟨List.nodup_nil, by simp⟩
  names := List.nodup_nil
  absent _ _ := rfl
  fits := nofun
  services _ := by simp

theorem action (h : w.Holds roll c) (name : String) :
    (c.triggers.lookup name).bind w.actionOf? = (triggerOf? roll name).map (·.ref) := by
  cases hf : triggerOf? roll name with
  | none =>
    rw [h.absent name hf]
    rfl
  | some f =>
    obtain ⟨i, t, hi, ht, hfits⟩ := h.fits name f hf
    rw [hi, Option.bind_some, actionOf?, ht]
    exact hfits.action

theorem of_triggers (h : w.Holds roll c) (heq : w'.triggers = w.triggers) : w'.Holds roll c where
  lists := ⟨h.lists.nodup, heq ▸ h.lists.exist⟩
  names := h.names
  absent := h.absent
  fits := heq ▸ h.fits
  services := h.services

theorem later (h : w.Holds roll c) (hreg : w.Registers roll' w') : w'.Holds roll c where
  lists := h.lists.mono hreg.size_le
  names := h.names
  absent := h.absent
  fits name f hf := by
    obtain ⟨i, t, hi, ht, hfits⟩ := h.fits name f hf
    obtain ⟨task, ht'⟩ := hreg.trigger i t ht
    -- a trigger is one for its function whatever task it has
    exact ⟨i, _, hi, ht', { hfits with }⟩
  services := h.services

variable {services : List String}

theorem services_append (h : w.Holds roll c) (hmem : f.Enlists c.services services)
    (name : String) :
    name ∈ services ↔ ∃ g ∈ roll ++ [f], g.offered ∧ g.name = name := by
  rw [hmem name, h.services]
  simp only [List.mem_append, List.mem_singleton, or_and_right, exists_or, exists_eq_left]
  exact or_congr_right (and_congr_right' eq_comm)

theorem plain (h : w.Holds roll c) (hf : f.triggered = false)
    (hmem : f.Enlists c.services services) : w.Holds (roll ++ [f]) { c with services } where
  lists := h.lists
  names := h.names
  absent name := by
    rw [triggerOf?_append, triggerOf?_singleton, hf]
    exact h.absent name
  fits name g := by
    rw [triggerOf?_append, triggerOf?_singleton, hf]
    exact h.fits name g
  services := h.services_append hmem

theorem assigned (h : w.Holds roll c) (hf : f.triggered = true)
    (hmem : f.Enlists c.services services) {t : TriggerId} {trigger : Trigger}
    (hnew : t ∉ c.triggers.map (·.2)) (ht : w.triggers[t]? = some trigger) (hfits : f.Fits trigger) :
    w.Holds (roll ++ [f]) { triggers := TriggerScript.assign c.triggers f.name t, services } where
  lists := by
    refine ⟨nodup_values_assign h.lists.nodup _ hnew, fun u hu ↦ ?_⟩
    obtain ⟨p, hp, rfl⟩ := List.mem_map.1 hu
    rcases mem_assign hp with rfl | hp
    · exact (Array.getElem?_eq_some_iff.1 ht).1
    · exact h.lists.exist _ (List.mem_map_of_mem hp)
  names := nodup_assign h.names _ _
  absent name := by
    rw [lookup_assign, triggerOf?_append, triggerOf?_singleton, hf, Bool.true_and]
    by_cases hname : name = f.name
    · simp [hname]
    · simpa [hname, Ne.symm hname] using h.absent name
  fits name g := by
    rw [lookup_assign, triggerOf?_append, triggerOf?_singleton, hf, Bool.true_and]
    by_cases hname : name = f.name
    · grind
    · simpa [hname, Ne.symm hname] using h.fits name g
  services := h.services_append hmem

end Holds

end World

namespace Activity

variable {f : Published} {done : Compiled} {w w' : World}

def makeTrigger (f : Published) (d : Decoration) : Activity TriggerId := do
  let c ← freshContext f.name f.globals
  newTrigger f.name (← op (d.config f.ref c f.globals))

def attach (f : Published) (done : Compiled) (schema : Value) : Activity Compiled := do
  let p ← decorate f schema f.body.decorators [] done.services
  let d ← checkCounts f checked p.1
  if d.isEmpty then return { done with services := p.2 }
  else
    let t ← makeTrigger f d
    return { triggers := assign done.triggers f.name t, services := p.2 }

theorem compileFunction_of_ne (hname : f.name ≠ reloadName) :
    compileFunction f done = describe f >>= attach f done := by
  unfold compileFunction
  rw [if_neg (by simpa using hname)]
  congr 1
  funext schema
  unfold attach makeTrigger
  simp only [Activity.bind_assoc]

theorem aside_describe (f : Published) : (describe f).Grants World.Aside := by
  unfold describe
  split
  · exact aside.op (p := default) _
  · exact aside.bind (p := default) (aside.say _ _ _) fun _ ↦ aside.raise _

variable {r : Except Stop Compiled} {schema : Value}

theorem decorate_all_finishes (hname : f.name ≠ reloadName) {services : List String}
    {r : Except Stop (Decoration × List String)}
    (h : (decorate f schema f.body.decorators [] services w).Finishes others r w') :
    ∃ services', r = .ok (f.body.decorators.foldl Decoration.take [], services') ∧
      w.Registers [f] w' ∧ f.Enlists services services' := by
  have hoffered : f.offered = f.body.decorators.any asksService := by
    rw [offered, bne_iff_ne.2 hname, Bool.true_and]
  obtain ⟨services', hr, hreg, hmem⟩ := decorate_finishes (hoffered ▸ id) h
  rw [← hoffered] at hreg hmem
  refine ⟨services', hr, hreg.congr fun name ↦ ?_, hmem⟩
  split
  · rfl
  · rename_i hnot
    rw [serviceOf?_singleton, answers, Bool.eq_false_iff.2 hnot]
    rfl

theorem makeTrigger_finishes {d : Decoration} {r : Except Stop TriggerId}
    (hd : ∀ k, (d.lookup k).getD [] = f.arguments k)
    (h : (makeTrigger f d w).Finishes others r w') :
    w.Aside w' ∧ ∀ t, r = .ok t →
      w.triggers.size ≤ t ∧ ∃ trigger, w'.triggers[t]? = some trigger ∧ f.Fits trigger := by
  rcases Grants.finishes_bind (aside_permissive.freshContext _ _) h with
    ⟨e, rfl, haside⟩ | ⟨c, w₁, -, haside₁, h⟩
  · exact ⟨haside, by simp⟩
  rcases Grants.finishes_bind (aside.op (p := default) _) h with
    ⟨e, rfl, haside⟩ | ⟨cfg, w₂, hcfg, haside₂, h⟩
  · exact ⟨haside₁.aside haside, by simp⟩
  have haside := haside₁.aside haside₂
  refine ⟨haside.aside ((aside_newTrigger _ _).aside h), ?_⟩
  rintro t rfl
  obtain ⟨hnew, trigger, htrigger, hfits⟩ := newTrigger_finishes h
  obtain ⟨haction, hsource⟩ := config_finishes hcfg
  refine ⟨Nat.le_trans haside.size_le hnew, trigger, htrigger, hfits f haction fun k ↦ ?_⟩
  rw [hsource, hd]

/-- What a function adds to what was compiled before it. -/
inductive Adds (f : Published) (done : Compiled) (w w' : World) : Compiled → Prop
  | plain {services : List String} (hf : f.triggered = false)
      (hmem : f.Enlists done.services services) : Adds f done w w' { done with services }
  | trigger {services : List String} {t : TriggerId} {trigger : Trigger} (hf : f.triggered = true)
      (hmem : f.Enlists done.services services) (hnew : w.triggers.size ≤ t)
      (ht : w'.triggers[t]? = some trigger) (hfits : f.Fits trigger) :
      Adds f done w w' { triggers := assign done.triggers f.name t, services }

theorem attach_finishes (hname : f.name ≠ reloadName)
    (h : (attach f done schema w).Finishes others r w') :
    w.Registers [f] w' ∧ ∀ c, r = .ok c → Adds f done w w' c := by
  rcases h.of_bind with ⟨_, w₁, hdecorate, h⟩ | ⟨e, hdecorate, -⟩
  swap
  · obtain ⟨_, hr, -⟩ := decorate_all_finishes hname hdecorate
    cases hr
  obtain ⟨services, hr, hreg₁, hmem⟩ := decorate_all_finishes hname hdecorate
  cases hr
  rcases h.of_bind with ⟨d, w₂, hcheck, h⟩ | ⟨e, hcheck, -⟩
  swap
  · obtain ⟨-, _, hr, -⟩ := checkCounts_finishes hcheck
    cases hr
  obtain ⟨haside₂, _, hr, hd⟩ := checkCounts_finishes hcheck
  cases hr
  have hempty := isEmpty_accepted hd hname
  have hreg₂ := hreg₁.aside haside₂
  dsimp only at h
  split at h
  · rename_i hnone
    obtain ⟨rfl, rfl⟩ := Step.finishes_ended.1 h
    refine ⟨hreg₂, ?_⟩
    rintro _ ⟨⟩
    exact .plain (by simpa [hnone] using hempty) hmem
  · rename_i hsome
    rcases h.of_bind (s := makeTrigger f d w₂) with ⟨t, w₃, ht, h⟩ | ⟨e, ht, rfl⟩
    · obtain ⟨haside₃, hnew⟩ := makeTrigger_finishes (getD_lookup_accepted hd) ht
      obtain ⟨hnew, trigger, htrigger, hfits⟩ := hnew t rfl
      obtain ⟨rfl, rfl⟩ := Step.finishes_ended.1 h
      refine ⟨hreg₂.aside haside₃, ?_⟩
      rintro _ ⟨⟩
      exact .trigger (by simpa [hsome] using hempty) hmem (Nat.le_trans hreg₂.size_le hnew) htrigger
        hfits
    · exact ⟨hreg₂.aside (makeTrigger_finishes (getD_lookup_accepted hd) ht).1, by simp⟩

theorem compileFunction_of_eq (hname : f.name = reloadName)
    (h : (compileFunction f done w).Finishes others r w') : r = .ok done ∧ w.Aside w' := by
  unfold compileFunction at h
  rw [if_pos (by simpa using hname)] at h
  obtain ⟨rfl, rfl⟩ := Step.finishes_ended.1 h
  exact ⟨rfl, .of_eq rfl rfl rfl⟩

theorem compileFunction_finishes {c : Compiled}
    (h : (compileFunction f done w).Finishes others (.ok c) w') :
    w.Registers [f] w' ∧ Adds f done w w' c := by
  by_cases hname : f.name = reloadName
  · obtain ⟨heq, haside⟩ := compileFunction_of_eq hname h
    cases heq
    have hoffered : f.offered = false := by simp [offered, hname]
    have htriggered : f.triggered = false := by simp [triggered, hname]
    refine ⟨haside.congr fun name ↦ ?_, .plain htriggered (by simp [Enlists, hoffered])⟩
    rw [serviceOf?_singleton, answers, hoffered]
    rfl
  · rw [compileFunction_of_ne hname] at h
    obtain ⟨schema, w₁, hdescribe, h⟩ := h.of_bind_ok
    have haside := (aside_describe f).aside hdescribe
    obtain ⟨hreg, hadds⟩ := attach_finishes hname h
    refine ⟨haside.after hreg, ?_⟩
    cases hadds c rfl with
    | plain hf hmem => exact .plain hf hmem
    | trigger hf hmem hnew ht hfits =>
      exact .trigger hf hmem (Nat.le_trans haside.size_le hnew) ht hfits

end Activity

theorem World.Holds.adds {f : Published} {done c : Compiled} {roll : List Published} {w w' : World}
    (h : w.Holds roll done) (hreg : w.Registers [f] w') (hadds : Adds f done w w' c) :
    w'.Holds (roll ++ [f]) c := by
  cases hadds with
  | plain hf hmem => exact (h.later hreg).plain hf hmem
  | @trigger services t trigger hf hmem hnew ht hfits =>
    refine (h.later hreg).assigned hf hmem (fun hold ↦ ?_) ht hfits
    exact Nat.lt_irrefl t (Nat.lt_of_lt_of_le (h.lists.exist t hold) hnew)

/-! ### Rolls -/

/-- Compiling functions in turn, with the roll of those whose decorators were gone through. -/
inductive Enrolls : List Published → Compiled → World → List Published → Except Stop Compiled →
    World → Prop
  | done (c : Compiled) (w : World) : Enrolls [] c w [] (.ok c) w
  | next {f : Published} {rest roll : List Published} {c c₁ : Compiled} {w w₁ w' : World}
      {r : Except Stop Compiled} (h : (compileFunction f c w).Finishes others (.ok c₁) w₁)
      (hrest : Enrolls rest c₁ w₁ roll r w') : Enrolls (f :: rest) c w (f :: roll) r w'
  | refused {f : Published} {rest : List Published} {c : Compiled} {w w' : World} {e : Stop}
      (hname : f.name ≠ reloadName) (h : (describe f w).Finishes others (.error e) w') :
      Enrolls (f :: rest) c w [] (.error e) w'
  | failed {f : Published} {rest : List Published} {c : Compiled} {schema : Value} {w w₁ w' : World}
      {e : Stop} (hname : f.name ≠ reloadName)
      (hdescribe : (describe f w).Finishes others (.ok schema) w₁)
      (h : (attach f c schema w₁).Finishes others (.error e) w') :
      Enrolls (f :: rest) c w [f] (.error e) w'

namespace Enrolls

variable {fs roll : List Published} {c c' : Compiled} {w w' : World} {r : Except Stop Compiled}

theorem finishes_iff :
    (compileFunctions fs c w).Finishes others r w' ↔ ∃ roll, Enrolls fs c w roll r w' := by
  constructor
  · intro h
    induction fs generalizing c w with
    | nil =>
      obtain ⟨rfl, rfl⟩ := Step.finishes_ended.1 h
      exact ⟨[], .done c w⟩
    | cons f rest ih =>
      rcases h.of_bind (s := compileFunction f c w) with ⟨c₁, w₁, hf, h⟩ | ⟨e, hf, rfl⟩
      · obtain ⟨roll, hroll⟩ := ih h
        exact ⟨f :: roll, .next hf hroll⟩
      · by_cases hname : f.name = reloadName
        · cases (compileFunction_of_eq hname hf).1
        · rw [compileFunction_of_ne hname] at hf
          rcases hf.of_bind with ⟨schema, w₁, hdescribe, hf⟩ | ⟨e, hdescribe, heq⟩
          · exact ⟨[f], .failed hname hdescribe hf⟩
          · cases heq
            exact ⟨[], .refused hname hdescribe⟩
  · rintro ⟨roll, h⟩
    induction h with
    | done c w => exact .ended _ _
    | next h _ ih => exact h.bind ih
    | refused hname h =>
      refine Step.Finishes.failed ?_
      rw [compileFunction_of_ne hname]
      exact h.failed
    | failed hname hdescribe h =>
      refine Step.Finishes.failed ?_
      rw [compileFunction_of_ne hname]
      exact hdescribe.bind h

theorem roll_eq (h : Enrolls fs c w roll (.ok c') w') : roll = fs := by
  generalize hr : (Except.ok c' : Except Stop Compiled) = r at h
  induction h with
  | done _ _ => rfl
  | next _ _ ih => rw [ih hr]
  | refused _ _ => cases hr
  | failed _ _ _ => cases hr

theorem registers (h : Enrolls fs c w roll r w') : w.Registers roll w' ∧
    ∀ c', r = .ok c' → ∀ earlier, w.Holds earlier c → w'.Holds (earlier ++ roll) c' := by
  induction h with
  | done c w =>
    refine ⟨World.Aside.refl w, ?_⟩
    rintro _ ⟨⟩ earlier h
    rwa [List.append_nil]
  | next h _ ih =>
    obtain ⟨hreg, hadds⟩ := compileFunction_finishes h
    refine ⟨hreg.trans ih.1, fun c' hc' earlier hearlier ↦ ?_⟩
    have := ih.2 c' hc' _ (hearlier.adds hreg hadds)
    rwa [List.append_assoc] at this
  | refused _ h => exact ⟨(aside_describe _).aside h, by simp⟩
  | failed hname hdescribe h =>
    exact ⟨((aside_describe _).aside hdescribe).after (attach_finishes hname h).1, by simp⟩

end Enrolls

namespace Interp

variable (I : Interp)

def load (file name source : String) : Activity (List Published) := do
  let globals ← modifyGet (·.addTable {})
  let c ← freshContext name globals
  let path := "/config/pyscript/" ++ file
  if ← readScript c (.text source) path then
    let _ ← I.run c .none
    let w ← world
    return published w.store path globals (w.table globals)
  else return []

theorem compileScript_eq (file name source : String) (done : Compiled) :
    I.compileScript file name source done =
      I.load file name source >>= fun fs ↦ compileFunctions fs done := by
  unfold compileScript load
  simp only [Activity.bind_assoc]
  congr 1
  funext globals
  congr 1
  funext c
  congr 1
  funext parsed
  cases parsed with
  | true =>
    simp only [if_true, Activity.bind_assoc]
    rfl
  | false => rfl

variable {I} in
theorem aside_load (hI : aside.Obeyed I) (file name source : String) :
    (I.load file name source).Grants World.Aside := by
  have addTable : aside.Obeys default (modifyGet (·.addTable {})) :=
    grants_of_ended fun w ↦ ⟨_, _, rfl, .of_eq rfl rfl rfl⟩
  refine aside.bind (p := default) addTable fun globals ↦
    aside.bind (aside_permissive.freshContext _ _) fun c ↦
    aside.bind (aside.readScript trivial _ _) fun parsed ↦ aside.ite ?_ (aside.pure _)
  exact aside.bind (hI.run trivial _) fun _ ↦ aside.bind aside.world fun w ↦ aside.pure _

/-- Compiling files in turn, with their roll. -/
inductive Compiles (I : Interp) :
    List (String × String) → Compiled → World → List Published → Except Stop Compiled → World → Prop
  | done (c : Compiled) (w : World) : Compiles I [] c w [] (.ok c) w
  | skipped {file source : String} {rest : List (String × String)} {c : Compiled} {w w' : World}
      {roll : List Published} {r : Except Stop Compiled} (hname : scriptName? file = none)
      (hrest : Compiles I rest c w roll r w') : Compiles I ((file, source) :: rest) c w roll r w'
  | unread {file source name : String} {rest : List (String × String)} {c : Compiled} {w w' : World}
      {e : Stop} (hname : scriptName? file = some name)
      (h : (I.load file name source w).Finishes others (.error e) w') :
      Compiles I ((file, source) :: rest) c w [] (.error e) w'
  | broken {file source name : String} {rest : List (String × String)} {c : Compiled}
      {w w₁ w' : World} {fs roll : List Published} {e : Stop} (hname : scriptName? file = some name)
      (hload : (I.load file name source w).Finishes others (.ok fs) w₁)
      (h : Enrolls fs c w₁ roll (.error e) w') :
      Compiles I ((file, source) :: rest) c w roll (.error e) w'
  | script {file source name : String} {rest : List (String × String)} {c c₁ : Compiled}
      {w w₁ w₂ w' : World} {fs roll roll' : List Published} {r : Except Stop Compiled}
      (hname : scriptName? file = some name)
      (hload : (I.load file name source w).Finishes others (.ok fs) w₁)
      (h : Enrolls fs c w₁ roll (.ok c₁) w₂) (hrest : Compiles I rest c₁ w₂ roll' r w') :
      Compiles I ((file, source) :: rest) c w (roll ++ roll') r w'

namespace Compiles

variable {I : Interp} {files : List (String × String)} {c : Compiled} {w w' : World}
  {roll : List Published} {r : Except Stop Compiled}

theorem finishes_iff :
    (I.compileFiles files c w).Finishes others r w' ↔ ∃ roll, I.Compiles files c w roll r w' := by
  constructor
  · intro h
    induction files generalizing c w with
    | nil =>
      obtain ⟨rfl, rfl⟩ := Step.finishes_ended.1 h
      exact ⟨[], .done c w⟩
    | cons p rest ih =>
      obtain ⟨file, source⟩ := p
      rw [compileFiles] at h
      cases hname : scriptName? file with
      | none =>
        rw [hname] at h
        obtain ⟨roll, hroll⟩ := ih h
        exact ⟨roll, .skipped hname hroll⟩
      | some name =>
        rw [hname] at h
        simp only [compileScript_eq, Activity.bind_assoc] at h
        rcases h.of_bind with ⟨fs, w₁, hload, h⟩ | ⟨e, hload, rfl⟩
        · rcases h.of_bind with ⟨c₁, w₂, hfs, h⟩ | ⟨e, hfs, rfl⟩
          · obtain ⟨roll, hroll⟩ := Enrolls.finishes_iff.1 hfs
            obtain ⟨roll', hroll'⟩ := ih h
            exact ⟨roll ++ roll', .script hname hload hroll hroll'⟩
          · obtain ⟨roll, hroll⟩ := Enrolls.finishes_iff.1 hfs
            exact ⟨roll, .broken hname hload hroll⟩
        · exact ⟨[], .unread hname hload⟩
  · rintro ⟨roll, h⟩
    induction h with
    | done c w => exact .ended _ _
    | skipped hname _ ih =>
      rw [compileFiles, hname]
      exact ih
    | unread hname h =>
      rw [compileFiles, hname]
      simp only [compileScript_eq, Activity.bind_assoc]
      exact h.failed
    | broken hname hload h =>
      rw [compileFiles, hname]
      simp only [compileScript_eq, Activity.bind_assoc]
      exact hload.bind (Step.Finishes.failed (Enrolls.finishes_iff.2 ⟨_, h⟩))
    | script hname hload h _ ih =>
      rw [compileFiles, hname]
      simp only [compileScript_eq, Activity.bind_assoc]
      exact hload.bind (Step.Finishes.bind (Enrolls.finishes_iff.2 ⟨_, h⟩) ih)

theorem registers (hI : aside.Obeyed I) (h : I.Compiles files c w roll r w') : w.Registers roll w' ∧
    ∀ c', r = .ok c' → ∀ earlier, w.Holds earlier c → w'.Holds (earlier ++ roll) c' := by
  induction h with
  | done c w =>
    refine ⟨World.Aside.refl w, ?_⟩
    rintro _ ⟨⟩ earlier h
    rwa [List.append_nil]
  | skipped _ _ ih => exact ih
  | unread _ h => exact ⟨(aside_load hI _ _ _).aside h, by simp⟩
  | broken _ hload h => exact ⟨((aside_load hI _ _ _).aside hload).after h.registers.1, by simp⟩
  | script _ hload h _ ih =>
    have haside := (aside_load hI _ _ _).aside hload
    obtain ⟨hreg, hholds⟩ := h.registers
    refine ⟨(haside.after hreg).trans ih.1, fun c' hc' earlier hearlier ↦ ?_⟩
    have := ih.2 c' hc' _ (hholds _ rfl earlier (hearlier.later haside))
    rwa [List.append_assoc] at this

end Compiles

end Interp

end TriggerScript
