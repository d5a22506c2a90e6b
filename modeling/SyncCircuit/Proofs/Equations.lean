import SyncCircuit.Proofs.Phases

/-! # Updates as equations

A pass over the updates writes one target after another, while an equation speaks about a single
valuation. The two views meet if the targets are distinct and new: then a pass ends in a valuation that
satisfies every equation (`Phase.applyUpdates_holds`), and the equations leave no other choice
(`agreeOn_of_holds`).

Both arguments follow a reference pass over the same updates, which started with few names and
succeeded. At the turn of each update it has bound exactly what the update may read.
-/

namespace SyncCircuit

open Bindings (AgreeOn)

/-- The equation of an update: the target has the value of the expression. -/
def Update.Holds (definitions : Definitions) (limit : Int) (values : Bindings Bool) (u : Update) :
    Prop :=
  ∃ value, u.value.eval limit { definitions, globals := values } = .ok value ∧
    values.get? u.target = some value

variable {definitions : Definitions} {limit : Int} {us : List Update} {f f' : Bindings Bool}

/-- A pass whose targets are distinct and not among the names of the reference satisfies all equations
    at its end: what an update reads is not written after its turn. -/
theorem Phase.applyUpdates_holds {g g' : Bindings Bool}
    (reference : applyUpdates definitions limit us f = .ok () f')
    (pass : applyUpdates definitions limit us g = .ok () g')
    (covered : ∀ name ∈ f.names, name ∈ g.names)
    (fresh : ∀ name ∈ f.names, name ∉ us.map (·.target))
    (distinct : (us.map (·.target)).Nodup) :
    ∀ u ∈ us, u.Holds definitions limit g' := by
  induction us generalizing f g with
  | nil => simp
  | cons u rest ih =>
      obtain ⟨value, evaluated, reference⟩ := applyUpdates_cons_ok reference
      obtain ⟨written, now, later⟩ := applyUpdates_cons_ok pass
      rw [List.map_cons, List.nodup_cons] at distinct
      intro v mem
      rcases List.mem_cons.mp mem with rfl | mem
      · have agree : AgreeOn f.names g g' := by
          intro name bound
          obtain ⟨b, found⟩ := (g.mem_names_iff name).mp (covered name bound)
          exact ⟨b, found, ((applyUpdates_wrote pass).get?_eq (fresh name bound)).trans found⟩
        obtain ⟨b, before, after⟩ := Expr.eval_agree evaluated agree
        cases now.symm.trans before
        refine ⟨written, after, ?_⟩
        rw [(applyUpdates_wrote later).get?_eq distinct.1, Bindings.get?_put_self]
      · refine ih reference later ?_ ?_ distinct.2 v mem
        · intro name bound
          rw [Bindings.mem_names_put] at bound ⊢
          exact bound.imp_left (covered name)
        · intro name bound
          rcases (Bindings.mem_names_put f u.target name value).mp bound with old | rfl
          · exact fun target => fresh name old (List.mem_cons_of_mem _ target)
          · exact distinct.1

theorem Phase.applyUpdates_eq_self {v : Bindings Bool} (holds : ∀ u ∈ us, u.Holds definitions limit v) :
    applyUpdates definitions limit us v = .ok () v := by
  induction us with
  | nil => rfl
  | cons u rest ih =>
      obtain ⟨value, evaluated, target⟩ := holds u List.mem_cons_self
      rw [applyUpdates_cons, evaluated]
      simp only [Bindings.put_eq_self target]
      exact ih fun u mem => holds u (List.mem_cons_of_mem _ mem)

/-- Two valuations that satisfy the equations and agree where the reference starts agree where it
    ends. -/
theorem agreeOn_of_holds {v w : Bindings Bool}
    (reference : Phase.applyUpdates definitions limit us f = .ok () f')
    (left : ∀ u ∈ us, u.Holds definitions limit v) (right : ∀ u ∈ us, u.Holds definitions limit w)
    (agree : AgreeOn f.names v w) : AgreeOn f'.names v w := by
  induction us generalizing f with
  | nil =>
      cases reference
      exact agree
  | cons u rest ih =>
      obtain ⟨value, evaluated, reference⟩ := Phase.applyUpdates_cons_ok reference
      refine ih reference (fun u mem => left u (List.mem_cons_of_mem _ mem))
        (fun u mem => right u (List.mem_cons_of_mem _ mem)) ?_
      obtain ⟨b, inV, inW⟩ := Expr.eval_agree evaluated agree
      obtain ⟨c, evalV, targetV⟩ := left u List.mem_cons_self
      obtain ⟨d, evalW, targetW⟩ := right u List.mem_cons_self
      cases evalV.symm.trans inV
      cases evalW.symm.trans inW
      intro name bound
      rcases (Bindings.mem_names_put f u.target name value).mp bound with old | rfl
      · exact agree name old
      · exact ⟨_, targetV, targetW⟩

end SyncCircuit
