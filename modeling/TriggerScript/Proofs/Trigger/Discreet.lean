import TriggerScript.Proofs.Trigger.Rounds
import TriggerScript.Proofs.Trigger.Watching
import TriggerScript.Proofs.Value.Association

/-!
# What is discreet

All of evaluation is discreet, since what it does at once is (`Act.discreet`), and so is what tasks
do beside it (`discreet_permissive`). The triggers that compiling gives are new, so no two of them
are one (`Interp.under_compile`).
-/

namespace TriggerScript

open Activity

theorem discreet_permissive : Permissive World.Discreet where
  refl := .refl
  trans _ _ _ h h' := h.trans h'
  act _ _ _ _ h := h.discreet
  starts w oversight _ hjob := .startTask oversight hjob w
  frame _ _ _ _ := .of_eq rfl rfl rfl rfl rfl
  queues _ _ := .of_eq rfl rfl rfl rfl rfl
  states _ _ := .of_eq rfl rfl rfl rfl rfl

def discreet : Discipline := discreet_permissive.discipline

theorem discreet_full : discreet.Obeyed Interp.full := discreet.obeyed_upTo _

theorem Activity.discreet_modify {f : World → World} (hf : ∀ w : World, w.Discreet (f w)) :
    discreet.Obeys default (modify f) :=
  grants_modify hf

/-! ### Compiling -/

def Rely.growing : Rely := fun _ w w' ↦ w.triggers.size ≤ w'.triggers.size

namespace Activity

variable {α β : Type} {w : World} {table : List (String × TriggerId)} {Q : β → World → Prop}

theorem under_bind_of_discreet {x : Activity α} {f : α → Activity β} (hx : discreet.Obeys default x)
    (h : w.Lists table)
    (hf : ∀ a w, w.Lists table → (f a w).Under .growing World.Discreet Q w) :
    ((x >>= f) w).Under .growing World.Discreet Q w := by
  have hfirst : (x w).Under .growing World.Discreet (fun _ _ ↦ True) w :=
    (hx w).mono (fun _ _ _ _ ↦ trivial) (fun _ _ h ↦ h) fun _ _ h ↦ h
  have hkeeps := hfirst.holding (K := (·.Lists table)) (fun _ _ _ hR h ↦ h.mono hR)
    (fun _ _ hG h ↦ h.mono hG.triggers) h
  exact hkeeps.bind (fun _ _ h ↦ h.1) (fun _ _ _ h h' ↦ h.1.trans h') fun a w hw ↦ hf a w hw.2

theorem under_result (a : β) (h : Q a w) : (result a w).Under .growing World.Discreet Q w :=
  ⟨.refl w, fun _ heq ↦ by cases heq; exact h⟩

theorem under_newTrigger (name : String) (cfg : TriggerConfig) (h : w.Lists table) :
    (newTrigger name cfg w).Under .growing World.Discreet
      (fun t w ↦ w.Lists table ∧ t ∉ table.map (·.2) ∧ t < w.triggers.size) w := by
  refine under_bind_of_discreet (discreet.modifyGet _ fun w ↦ .addQueue w _) h fun queue w h ↦
    under_bind_of_discreet (discreet_permissive.triggerExpression _ _ _ _) h fun activeExpr w h ↦
    under_bind_of_discreet (discreet_permissive.triggerExpression _ _ _ _) h fun stateExpr w h ↦
    under_bind_of_discreet (discreet_permissive.triggerStates _ _) h fun watched w h ↦
    under_bind_of_discreet (discreet_permissive.triggerEvent _ _ _ _) h fun eventExpr w h ↦
    ⟨.addTrigger w _, ?_⟩
  rintro _ ⟨⟩
  refine ⟨h.mono (by simp), fun hmem ↦ Nat.lt_irrefl _ (h.exist _ hmem), by simp⟩

theorem discreet_describe (f : Published) : discreet.Obeys default (describe f) := by
  unfold describe
  split
  · exact discreet.op _
  · exact discreet.bind (discreet.say _ _ _) fun _ ↦ discreet.raise _

theorem discreet_decorate (f : Published) (schema : Value)
    (decorators : List (String × Option (List Value))) (d : Decoration) (services : List String) :
    discreet.Obeys default (decorate f schema decorators d services) := by
  have publish : discreet.Obeys default (publish f schema) :=
    discreet_modify fun w ↦ .of_eq rfl rfl rfl rfl rfl
  induction decorators generalizing d services with
  | nil => exact discreet.pure _
  | cons p rest ih =>
    obtain ⟨name, args⟩ := p
    unfold decorate
    split
    · exact ih _ _
    · refine discreet.ite (discreet.ite ?_ ?_) ?_
      · exact discreet.bind (discreet.say _ _ _) fun _ ↦ ih _ _
      · exact discreet.bind publish fun _ ↦ ih _ _
      · exact discreet.bind (discreet.say _ _ _) fun _ ↦ ih _ _

theorem discreet_checkCounts (f : Published) (kinds : List TriggerKind) (d : Decoration) :
    discreet.Obeys default (checkCounts f kinds d) := by
  induction kinds generalizing d with
  | nil => exact discreet.pure _
  | cons k rest ih =>
    unfold checkCounts
    split
    · exact ih _
    · exact discreet.bind (discreet.say _ _ _) fun _ ↦ ih _

theorem under_compileFunction (f : Published) (done : Compiled) (h : w.Lists done.triggers) :
    (compileFunction f done w).Under .growing World.Discreet (fun c w ↦ w.Lists c.triggers) w := by
  unfold compileFunction
  split
  · exact under_bind_of_discreet (discreet.say _ _ _) h fun _ w h ↦ under_result _ h
  · refine under_bind_of_discreet (discreet_describe f) h fun schema w h ↦
      under_bind_of_discreet (discreet_decorate f schema _ _ _) h fun d w h ↦
      under_bind_of_discreet (discreet_checkCounts f _ _) h fun d w h ↦ ?_
    split
    · exact under_result _ h
    · refine under_bind_of_discreet (discreet_permissive.freshContext _ _) h fun c w h ↦
        under_bind_of_discreet (discreet.op _) h fun cfg w h ↦ ?_
      refine (under_newTrigger f.name cfg h).bind (fun _ _ h ↦ h) (fun _ _ _ h h' ↦ h.trans h')
        fun t w ⟨h, hnew, ht⟩ ↦ under_result _ ⟨nodup_values_assign h.nodup _ hnew, fun u hu ↦ ?_⟩
      obtain ⟨p, hp, rfl⟩ := List.mem_map.1 hu
      rcases mem_assign hp with rfl | hp
      · exact ht
      · exact h.exist _ (List.mem_map_of_mem hp)

theorem under_compileFunctions (fs : List Published) (done : Compiled) (h : w.Lists done.triggers) :
    (compileFunctions fs done w).Under .growing World.Discreet (fun c w ↦ w.Lists c.triggers)
      w := by
  induction fs generalizing done w with
  | nil => exact under_result _ h
  | cons f rest ih =>
    exact (under_compileFunction f done h).bind (fun _ _ h ↦ h) (fun _ _ _ h h' ↦ h.trans h')
      fun done w h ↦ ih done h

end Activity

namespace Interp

variable {I : Interp} (hI : discreet.Obeyed I) {w : World}

include hI

theorem under_compileScript (file name source : String) (done : Compiled)
    (h : w.Lists done.triggers) :
    (I.compileScript file name source done w).Under .growing World.Discreet
      (fun c w ↦ w.Lists c.triggers) w := by
  have addTable : discreet.Obeys default (modifyGet (·.addTable {})) :=
    grants_of_ended fun w ↦ ⟨_, _, rfl, .of_eq rfl rfl rfl rfl rfl⟩
  refine under_bind_of_discreet addTable h fun globals w h ↦
    under_bind_of_discreet (discreet_permissive.freshContext _ _) h fun c w h ↦
    under_bind_of_discreet (discreet.readScript trivial _ _) h fun parsed w h ↦ ?_
  split
  · exact under_bind_of_discreet (hI.run trivial _) h fun _ w h ↦
      under_bind_of_discreet discreet.world h fun w' w h ↦ under_compileFunctions _ done h
  · exact under_result _ h

theorem under_compile (w : World) :
    (I.compile w).Under .growing World.Discreet (fun c w ↦ w.Lists c.triggers) w := by
  have files (fs : List (String × String)) : ∀ (done : Compiled) (w : World),
      w.Lists done.triggers →
      (I.compileFiles fs done w).Under .growing World.Discreet (fun c w ↦ w.Lists c.triggers)
        w := by
    induction fs with
    | nil => exact fun done w h ↦ under_result _ h
    | cons p rest ih =>
      intro done w h
      obtain ⟨file, source⟩ := p
      unfold compileFiles
      cases scriptName? file with
      | none => exact ih done w h
      | some name =>
        exact (under_compileScript hI file name source done h).bind (fun _ _ h ↦ h)
          (fun _ _ _ h h' ↦ h.trans h') fun done w h ↦ ih done w h
  have hnone : w.Lists [] := ⟨List.nodup_nil, nofun⟩
  exact under_bind_of_discreet (discreet.read _) hnone fun fs w h ↦ files fs {} w h

end Interp

end TriggerScript
