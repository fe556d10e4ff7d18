import TriggerScript.Proofs.Evaluation.Run
import TriggerScript.Proofs.Trigger.Conduct

/-!
# What compiling a function registers

A function of a script is offered as a service if it has the decorator `service` without arguments
(`Published.offered`), and it gets a trigger if one of its other decorators is accepted
(`Published.triggered`). Where several functions of a roll go by one name the last one counts
(`serviceOf?`, `triggerOf?`). With nothing in the roll, to register it is what everybody else does
(`World.Aside`).
-/

namespace TriggerScript

open Activity

/-! ### Functions and their decorators -/

namespace Published

def asksService (d : String × Option (List Value)) : Bool := d.1 == "service" && d.2.isNone

/-- The function is offered as a service. -/
def offered (f : Published) : Bool := f.name != reloadName && f.body.decorators.any asksService

/-- The function is offered under this name. -/
def answers (f : Published) (name : String) : Bool :=
  f.offered && Host.serviceKey serviceDomain f.name == Host.serviceKey serviceDomain name

def service (f : Published) : Service := .function f.name f.ref f.globals

def serviceOf? (roll : List Published) (name : String) : Option Service :=
  (roll.findRev? (·.answers name)).map service

def given : List (String × Option (List Value)) → TriggerKind → Option (List Value)
  | [], _ => none
  | (word, args) :: rest, k =>
    if TriggerKind.ofWord? word = some k then some (args.getD [] ++ (given rest k).getD [])
    else given rest k

/-- Some decorator of this kind has a right number of arguments. -/
def accepts (f : Published) (k : TriggerKind) : Bool :=
  (given f.body.decorators k).any fun args ↦
    k.counts?.all fun counts ↦ args.isEmpty || counts.contains args.length

def arguments (f : Published) (k : TriggerKind) : List Value :=
  if f.accepts k then (given f.body.decorators k).getD [] else []

/-- The function has something to wait for. -/
def waits (f : Published) : Bool :=
  [TriggerKind.stateTrigger, .timeTrigger, .eventTrigger].any fun k ↦ !(f.arguments k).isEmpty

/-- The function gets a trigger. -/
def triggered (f : Published) : Bool :=
  f.name != reloadName &&
    [TriggerKind.timeTrigger, .stateTrigger, .eventTrigger, .stateActive, .timeActive].any f.accepts

/-- The last triggered function of this name. -/
def triggerOf? (roll : List Published) (name : String) : Option Published :=
  roll.findRev? fun f ↦ f.triggered && f.name == name

variable {f : Published} {roll roll' : List Published} {name : String}

theorem serviceOf?_append (roll roll' : List Published) (name : String) :
    serviceOf? (roll ++ roll') name = (serviceOf? roll' name).or (serviceOf? roll name) := by
  simp only [serviceOf?, List.findRev?_eq_find?_reverse, List.reverse_append, List.find?_append,
    Option.map_or]

theorem serviceOf?_singleton (f : Published) (name : String) :
    serviceOf? [f] name = if f.answers name then some f.service else none := by
  simp only [serviceOf?, List.findRev?_eq_find?_reverse, List.reverse_singleton,
    List.find?_singleton]
  split <;> rfl

theorem triggerOf?_append (roll roll' : List Published) (name : String) :
    triggerOf? (roll ++ roll') name = (triggerOf? roll' name).or (triggerOf? roll name) := by
  simp only [triggerOf?, List.findRev?_eq_find?_reverse, List.reverse_append, List.find?_append]

theorem triggerOf?_singleton (f : Published) (name : String) :
    triggerOf? [f] name = if f.triggered && f.name == name then some f else none := by
  simp only [triggerOf?, List.findRev?_eq_find?_reverse, List.reverse_singleton,
    List.find?_singleton]

theorem mem_of_serviceOf? {s : Service} (h : serviceOf? roll name = some s) :
    ∃ f ∈ roll, f.answers name ∧ f.service = s := by
  obtain ⟨f, hf, rfl⟩ := Option.map_eq_some_iff.1 h
  rw [List.findRev?_eq_find?_reverse] at hf
  exact ⟨f, List.mem_reverse.1 (List.mem_of_find?_eq_some hf), by simpa using List.find?_some hf,
    rfl⟩

theorem isSome_serviceOf? (roll : List Published) (name : String) :
    (serviceOf? roll name).isSome = roll.any (·.answers name) := by
  rw [serviceOf?, Option.isSome_map, List.findRev?_eq_find?_reverse, Bool.eq_iff_iff,
    List.find?_isSome, List.any_eq_true]
  simp

end Published

open Published

/-! ### What the folder sees of a change -/

namespace World

variable {w w₁ w' : World} {roll roll' : List Published}

def actionOf? (w : World) (t : TriggerId) : Option Ref := (w.triggers[t]?).bind (·.action)

/-- What compiling the roll does to the services. -/
structure Registers (roll : List Published) (w w' : World) : Prop where
  service : ∀ name, w'.host.service? serviceDomain name =
    (serviceOf? roll name).or (w.host.service? serviceDomain name)
  services : w'.folder.services = w.folder.services
  table : w'.folder.triggers = w.folder.triggers
  trigger : ∀ (t : TriggerId) trigger, w.triggers[t]? = some trigger →
    ∃ task, w'.triggers[t]? = some { trigger with task }

abbrev Aside (w w' : World) : Prop := Registers [] w w'

namespace Registers

theorem trans (h : Registers roll w w₁) (h' : Registers roll' w₁ w') :
    Registers (roll ++ roll') w w' where
  service name := by rw [h'.service, h.service, serviceOf?_append, Option.or_assoc]
  services := h'.services.trans h.services
  table := h'.table.trans h.table
  trigger t trigger ht := by
    obtain ⟨task, ht₁⟩ := h.trigger t trigger ht
    obtain ⟨task', ht'⟩ := h'.trigger t _ ht₁
    exact ⟨task', ht'⟩

theorem aside (h : Registers roll w w₁) (h' : Aside w₁ w') : Registers roll w w' := by
  simpa using h.trans h'

theorem after (h : Aside w w₁) (h' : Registers roll w₁ w') : Registers roll w w' := h.trans h'

theorem congr (h : Registers roll w w')
    (heq : ∀ name, serviceOf? roll name = serviceOf? roll' name) : Registers roll' w w' := by
  refine ⟨fun name ↦ ?_, h.services, h.table, h.trigger⟩
  rw [h.service, heq]

theorem lt_size (h : Registers roll w w') {t : TriggerId} (ht : t < w.triggers.size) :
    t < w'.triggers.size := by
  obtain ⟨task, ht'⟩ := h.trigger t _ (Array.getElem?_eq_getElem ht)
  exact (Array.getElem?_eq_some_iff.1 ht').1

theorem size_le (h : Registers roll w w') : w.triggers.size ≤ w'.triggers.size := by
  by_contra hlt
  exact Nat.lt_irrefl _ (h.lt_size (Nat.not_le.1 hlt))

end Registers

namespace Aside

theorem of_eq (hservices : w'.host.services = w.host.services) (hfolder : w'.folder = w.folder)
    (htriggers : w'.triggers = w.triggers) : Aside w w' := by
  refine ⟨fun name ↦ ?_, by rw [hfolder], by rw [hfolder], fun t trigger ht ↦ ⟨trigger.task, ?_⟩⟩
  · rw [Host.service?, hservices]
    rfl
  · rw [htriggers, ht]

theorem refl (w : World) : Aside w w := of_eq rfl rfl rfl

theorem modifyTask (w : World) (t : TriggerId) (task : Option TaskId) :
    Aside w { w with triggers := w.triggers.modify t ({ · with task }) } := by
  refine ⟨fun name ↦ rfl, rfl, rfl, fun u trigger hu ↦ ?_⟩
  simp only [Array.getElem?_modify, hu, Option.map_some]
  split
  · exact ⟨task, rfl⟩
  · exact ⟨trigger.task, rfl⟩

theorem startWatch (w : World) (t : TriggerId) : Aside w (w.startWatch t) := by
  have hstart : Aside w (w.startTask .logged (.watch t)).2 := of_eq rfl rfl rfl
  exact hstart.after (modifyTask _ t (some w.tasks.size))

theorem startAll (w : World) (ts : List TriggerId) : Aside w (w.startAll ts) := by
  induction ts generalizing w with
  | nil => exact refl w
  | cons t rest ih => exact (startWatch w t).after (ih (w.startWatch t))

theorem addTrigger (w : World) (trigger : Trigger) :
    Aside w { w with triggers := w.triggers.push trigger } := by
  refine ⟨fun name ↦ rfl, rfl, rfl, fun t trigger' ht ↦ ⟨trigger'.task, ?_⟩⟩
  have hlt : t < w.triggers.size := (Array.getElem?_eq_some_iff.1 ht).1
  rw [Array.getElem?_push, if_neg (Nat.ne_of_lt hlt), ht]

end Aside

end World

/-! ### What others do -/

theorem Notify.EventTable.services_add (t : EventTable) (h : Host) (type : String) (q : QueueId) :
    (t.add h type q).2.services = h.services := by
  unfold add
  split
  · rfl
  · split <;> rfl

theorem Notify.EventTable.services_remove (t : EventTable) (h : Host) (type : String)
    (q : QueueId) : (t.remove h type q).1.2.services = h.services := by
  unfold remove
  split
  · rfl
  · split
    · dsimp only
      split
      · split <;> rfl
      · rfl
    · rfl

theorem Act.aside {E : Owned} {p : Site} {w w' : World} (h : Act E p w w') : w.Aside w' := by
  induction h with
  | trans _ _ ih₁ ih₂ => exact ih₁.after ih₂
  | watchEvents w type _ => exact .of_eq (w.eventTable.services_add _ _ _) rfl rfl
  | unwatchEvents w type _ => exact .of_eq (w.eventTable.services_remove _ _ _) rfl rfl
  | _ => exact .of_eq rfl rfl rfl

theorem aside_permissive : Permissive World.Aside where
  refl := .refl
  trans _ _ _ h h' := h.after h'
  act _ _ _ _ h := h.aside
  starts _ _ _ _ := .of_eq rfl rfl rfl
  frame _ _ _ _ := .of_eq rfl rfl rfl
  queues _ _ := .of_eq rfl rfl rfl
  states _ _ := .of_eq rfl rfl rfl

def aside : Discipline := aside_permissive.discipline

theorem aside_full : aside.Obeyed Interp.full := aside.obeyed_upTo _

/-- Others leave the folder and its services alone. -/
def others : Environment := fun _ w _ w' ↦ w.Aside w'

theorem Step.Under.of_finishes {α : Type} {R : Rely} {G : World → World → Prop}
    {Q : α → World → Prop} {E : Environment} {s : Step α} {w w' : World} {r : Except Stop α}
    (h : s.Under R G Q w)
    (htrans : ∀ w w₁ w', G w w₁ → G w₁ w' → G w w')
    (hE : ∀ request w reply w', E request w reply w' → R request w w' ∧ G w w')
    (hfin : s.Finishes E r w') : G w w' ∧ ∀ a, r = .ok a → Q a w' := by
  induction hfin generalizing w with
  | ended r w' => exact h
  | resumed reply hreply _ ih =>
    obtain ⟨hR, hG⟩ := hE _ _ _ _ hreply
    obtain ⟨hrest, hQ⟩ := ih (h.2 reply _ hR)
    exact ⟨htrans _ _ _ h.1 (htrans _ _ _ hG hrest), hQ⟩

theorem Activity.Grants.aside {α : Type} {x : Activity α} (hx : x.Grants World.Aside) {w w' : World}
    {r : Except Stop α} (h : (x w).Finishes others r w') : w.Aside w' :=
  ((hx w).of_finishes (fun _ _ _ h h' ↦ h.after h') (fun _ _ _ _ h ↦ ⟨trivial, h⟩) h).1

theorem Activity.aside_stopTrigger (t : TriggerId) : (stopTrigger t).Grants World.Aside := by
  refine aside.bind (p := default) (aside.read _) fun trigger ↦ ?_
  split
  · exact aside.pure _
  · split
    · exact aside.pure _
    · refine aside.bind (aside_permissive.retire _) fun _ ↦ aside.bind (aside.stopTask _) fun _ ↦ ?_
      exact grants_modify fun w ↦ .modifyTask w t none

theorem Activity.aside_stopTriggers : stopTriggers.Grants World.Aside :=
  aside.bind (p := default) (aside.read _) fun table ↦ aside.each table fun p ↦
    aside_stopTrigger p.2

theorem Interp.aside_perform {I : Interp} (hI : aside.Obeyed I) {job : Job} (hsetup : job ≠ .setup)
    (hreload : ∀ data, job ≠ .serve .reload data) : (I.perform job).Grants World.Aside := by
  have done {x : Activity Unit} (hx : x.Grants World.Aside) :
      (do x; return .none : Activity Value).Grants World.Aside :=
    aside.bind (p := default) hx fun _ ↦ aside.pure _
  match job with
  | .script c values => exact hI.run (p := default) trivial values
  | .call f c args named => exact aside_permissive.callWith hI f c args named
  | .watch t => exact done (aside_permissive.watch hI t)
  | .stop t => exact done (aside_stopTrigger t)
  | .deliver .notify e => exact done (aside_permissive.onEventFired e)
  | .deliver .stateChanged e => exact done (aside_permissive.onStateChanged e)
  | .deliver .startTriggers e =>
    have hstart (p : String × TriggerId) : (startTrigger p.2).Grants World.Aside :=
      grants_of_ended fun w ↦ ⟨_, _, rfl, .startWatch w p.2⟩
    refine done (aside.bind (p := default) (grants_modify fun w ↦ .of_eq rfl rfl rfl) fun _ ↦ ?_)
    exact aside.bind (p := default) (aside.read _) fun table ↦ aside.each table hstart
  | .deliver .stopTriggers e => exact done aside_stopTriggers
  | .serve .nothing data => exact done (aside.pure (p := default) ())
  | .serve (.function name f globals) data =>
    exact done (aside_permissive.serveFunction data name f globals)
  | .serve .reload data => exact absurd rfl (hreload data)
  | .setup => exact absurd rfl hsetup

end TriggerScript
