import Mathlib.Data.Set.Insert
import SyncCircuit.Proofs.Resampling
import SyncCircuit.Proofs.Results

/-! # Cones of influence

Which signals can have an influence on a signal is seen from the updates and latches alone: a target is
influenced by all that its expression can read, and the output of a latch by the latch, one cycle later.
The cone of a signal is the least set that contains it and all influences on its members
(`Circuit.Cone`). Samples outside the cone have no effect on the signal in any cycle
(`Setup.output_independent_outside_cone`).

A cone is one of the sets that nothing from outside has an influence on (`Circuit.Closed`), and each phase
of a cycle preserves that two valuations agree on such a set.
-/

namespace SyncCircuit

/-- Two valuations give the names of a set the same values, or none. -/
def Bindings.EqOn (names : Set String) (f g : Bindings Bool) : Prop :=
  ∀ name ∈ names, f.get? name = g.get? name

namespace Circuit

/-- A signal can have an influence on another, the root. -/
inductive Cone (c : Circuit) (definitions : Definitions) (root : String) : String → Prop where
  | root : Cone c definitions root root
  | read {u name} (mem : u ∈ c.updates) (target : Cone c definitions root u.target)
      (reads : u.value.Reads definitions name) : Cone c definitions root name
  | stored {latch} (mem : latch ∈ c.latches)
      (output : Cone c definitions root (latchOutput latch)) : Cone c definitions root latch

/-- Nothing outside a set of signals has an influence on its members. -/
structure Closed (c : Circuit) (definitions : Definitions) (names : Set String) : Prop where
  updates : ∀ u ∈ c.updates, u.target ∈ names → ∀ name, u.value.Reads definitions name → name ∈ names
  latches : ∀ latch ∈ c.latches, latchOutput latch ∈ names → latch ∈ names

variable {c c' : Circuit} {definitions : Definitions} {limit : Int} {root : String}
  {names signals : Set String}

theorem closed_cone (c : Circuit) (definitions : Definitions) (root : String) :
    c.Closed definitions {name | c.Cone definitions root name} where
  updates _ mem target _ reads := .read mem target reads
  latches _ mem output := .stored mem output

/-- The cone is the least closed set around its root. -/
theorem Closed.mem_of_cone (closed : c.Closed definitions names) (inside : root ∈ names)
    {name : String} (cone : c.Cone definitions root name) : name ∈ names := by
  induction cone with
  | root => exact inside
  | read mem _ reads ih => exact closed.updates _ mem ih _ reads
  | stored mem _ ih => exact closed.latches _ mem ih

end Circuit

namespace Phase

variable {names : Set String} {f f' g g' : Bindings Bool}

theorem seed_eqOn {sample sample' : String → Except SimError Bool} {inputs : List String}
    (left : seed sample inputs f = .ok () f') (right : seed sample' inputs g = .ok () g')
    (samples : ∀ x ∈ names, (sample x).toOption = (sample' x).toOption) (same : f.EqOn names g) :
    f'.EqOn names g' := by
  intro name mem
  rw [seed_get? left, seed_get? right, samples name mem, same name mem]

theorem resetLatches_eqOn {latches : List String} (left : resetLatches latches f = .ok () f')
    (right : resetLatches latches g = .ok () g') (same : f.EqOn names g) : f'.EqOn names g' := by
  intro name mem
  rw [resetLatches_get? left, resetLatches_get? right, same name mem]

theorem copySource_mem_of_closed {latches : List String}
    (closed : ∀ latch ∈ latches, latchOutput latch ∈ names → latch ∈ names) {name : String}
    (mem : name ∈ names) : copySource latches name ∈ names := by
  induction latches with
  | nil => exact mem
  | cons latch rest ih =>
      have source := ih fun other inside => closed other (List.mem_cons_of_mem _ inside)
      rw [copySource]
      split
      · rename_i output
        exact closed latch List.mem_cons_self (output ▸ source)
      · exact source

theorem copyLatches_eqOn {latches : List String} (left : copyLatches latches f = .ok () f')
    (right : copyLatches latches g = .ok () g')
    (closed : ∀ latch ∈ latches, latchOutput latch ∈ names → latch ∈ names) (same : f.EqOn names g) :
    f'.EqOn names g' := by
  intro name mem
  rw [copyLatches_get? left, copyLatches_get? right]
  exact same _ (copySource_mem_of_closed closed mem)

theorem applyUpdates_eqOn {definitions : Definitions} {limit : Int} {us : List Update}
    (left : applyUpdates definitions limit us f = .ok () f')
    (right : applyUpdates definitions limit us g = .ok () g')
    (closed : ∀ u ∈ us, u.target ∈ names → ∀ name, u.value.Reads definitions name → name ∈ names)
    (same : f.EqOn names g) : f'.EqOn names g' := by
  induction us generalizing f g with
  | nil =>
      cases left
      cases right
      exact same
  | cons u rest ih =>
      obtain ⟨a, evaluated, left⟩ := applyUpdates_cons_ok left
      obtain ⟨b, evaluated', right⟩ := applyUpdates_cons_ok right
      apply ih left right fun other mem => closed other (List.mem_cons_of_mem _ mem)
      intro name mem
      rw [Bindings.get?_put, Bindings.get?_put]
      split
      · rename_i target
        have reads := closed u List.mem_cons_self (target ▸ mem)
        rw [Expr.eval_eq_of_reads fun name read => same name (reads name read), evaluated'] at evaluated
        cases evaluated
        rfl
      · exact same name mem

end Phase

namespace Circuit

variable {c c' : Circuit} {definitions : Definitions} {limit : Int} {start v w : Bindings Bool}
  {names signals : Set String} {cycle : Nat}

/-- Under other samples of signals outside a closed set, its members have the same values in every
    cycle. -/
theorem Reached.eqOn (resampled : c.Resampled signals c') (closed : c.Closed definitions names)
    (apart : ∀ x ∈ names, x ∉ signals) (left : c.Reached definitions limit start cycle v)
    (right : c'.Reached definitions limit start cycle w) : v.EqOn names w := by
  have samples : ∀ i, ∀ x ∈ names, c.stimulus x i = c'.stimulus x i :=
    fun i x mem => (resampled.stimulus_eq (apart x mem) i).symm
  obtain ⟨traces, rfl⟩ : ∃ traces, c' = c.withTraces traces := ⟨_, resampled.circuit⟩
  induction left generalizing w with
  | first h =>
      cases right with
      | first h' =>
          obtain ⟨seeded, reset, first, second, third⟩ := firstPhase_ok h
          obtain ⟨seeded', reset', first', second', third'⟩ := firstPhase_ok h'
          have sampled : seeded.EqOn names seeded' := by
            apply Phase.seed_eqOn first first' _ fun _ _ => rfl
            intro x mem
            rw [firstSample_toOption, firstSample_toOption, samples 0 x mem]
          have cleared := Phase.resetLatches_eqOn second second' sampled
          exact Phase.applyUpdates_eqOn third third' closed.updates cleared
  | next earlier h ih =>
      cases right with
      | next earlier' h' =>
          obtain ⟨copied, seeded, first, second, third⟩ := nextPhase_ok h
          obtain ⟨copied', seeded', first', second', third'⟩ := nextPhase_ok h'
          have stored := Phase.copyLatches_eqOn first first' closed.latches (ih earlier')
          have sampled : seeded.EqOn names seeded' := by
            apply Phase.seed_eqOn second second' _ stored
            intro x mem
            rw [sampleAt_toOption, sampleAt_toOption, samples _ x mem]
          exact Phase.applyUpdates_eqOn third third' closed.updates sampled

end Circuit

namespace Setup

open Operation

variable {u v : Setup} {s t r q : Session} {values values' : List (Bindings Bool)}
  {signals : Set String}

theorem Completed.same_output (run : u.Completed s r values) (run' : v.Completed t q values')
    (circuits : u.circuit.Resampled signals v.circuit) (settings : v.settings = u.settings)
    (fresh : s.Fresh u) (fresh' : t.Fresh v) {root : String} (output : root ∈ u.circuit.outputs)
    (apart : ∀ x ∈ signals, ¬ u.circuit.Cone s.simulator.definitions root x) :
    ∃ trace, r.results.output root = .ok trace ∧ q.results.output root = .ok trace := by
  have same : List.Forall₂ (fun f g => f.get? root = g.get? root) values values' := by
    apply run.forall₂ run' circuits.runLength
    intro i f g reaches reaches'
    rw [Reaches, fresh.vars] at reaches
    rw [Reaches, fresh'.vars, fresh.depthLimit_eq fresh' settings,
      fresh.definitions_eq fresh' circuits.definitions] at reaches'
    have outside : ∀ x, u.circuit.Cone s.simulator.definitions root x → x ∉ signals :=
      fun x cone changed => apart x changed cone
    exact reaches.eqOn circuits (u.circuit.closed_cone _ root) outside reaches' root .root
  have output' : root ∈ v.circuit.outputs := by
    rw [circuits.circuit]
    exact output
  refine ⟨_, run.output_eq output, ?_⟩
  rw [run'.output_eq output', filterMap_get?_eq same]

/-- Samples of signals outside the cone of an output do not matter to it: with others a run of a new
    simulator completes as well, and records the same trace of the output. Of the monitor, which sees all
    values, it is assumed that it answers the calls of both runs alike; one that never objects does, and on a
    bench nothing else is assumed (`Bench.Reachable.simulate_outside_cone`). -/
theorem output_independent_outside_cone (u v : Setup) {signals : Set String}
    (circuits : u.circuit.Resampled signals v.circuit) (settings : v.settings = u.settings)
    {s t : Session} (fresh : s.Fresh u) (fresh' : t.Fresh v) (readable : u.Readable s)
    (readable' : v.Readable t)
    (answers : ∀ (k : Nat) (a b : Hook), (u.run.after s).hooks[k]? = some a →
      (v.run.after t).hooks[k]? = some b →
      u.settings.monitor.objection a = v.settings.monitor.objection b)
    {root : String} (output : root ∈ u.circuit.outputs)
    (apart : ∀ x ∈ signals, ¬ u.circuit.Cone s.simulator.definitions root x)
    (completed : u.run.succeeds s = true) :
    v.run.succeeds t = true ∧ ∃ trace, (u.run.after s).results.output root = .ok trace ∧
      (v.run.after t).results.output root = .ok trace := by
  obtain ⟨ending, -⟩ := run_resampled circuits settings fresh fresh' readable readable' answers
  have succeeds : v.run.succeeds t = true := (succeeds_eq_of_ending ending).symm.trans completed
  obtain ⟨values, run⟩ := (u.ensures_run s).of_ok (eq_ok_of_succeeds completed)
  obtain ⟨values', run'⟩ := (v.ensures_run t).of_ok (eq_ok_of_succeeds succeeds)
  exact ⟨succeeds, run.same_output run' circuits settings fresh fresh' output apart⟩

/-- A function whose parameter is named like an input. -/
private def inversion : Definition :=
  ⟨"Invert", ["X"], .not (.signal "X")⟩

private def sideInput : Circuit where
  name := "side"
  inputs := ["In", "X"]
  outputs := ["Out", "Other"]
  latches := ["L"]
  definitions := [inversion]
  updates := [⟨"L", .apply "Invert" [.signal "In"]⟩, ⟨"Out", .signal "L'"⟩, ⟨"Other", .signal "X"⟩]
  traces := [⟨"In", [true, false, true]⟩, ⟨"X", [true, true, false]⟩]

private def sideOtherwise : Circuit :=
  sideInput.withTraces [⟨"In", [true, false, true]⟩, ⟨"X", [false, true, true]⟩]

private theorem closed_sideInput :
    sideInput.Closed (Bindings.empty.put "Invert" inversion) {"Out", "L'", "L", "In"} where
  updates := by
    have parametric : ∀ f d, (Bindings.empty.put "Invert" inversion).get? f = some d →
        ∀ name ∈ d.body.signals, name ∈ d.parameters := by
      intro f d found
      have defined : d = inversion := by
        rw [Bindings.get?_put] at found
        split at found
        · exact (Option.some.inj found).symm
        · cases found
      subst defined
      decide
    intro u mem target name reads
    have named := reads.mem_signals parametric
    simp only [sideInput, List.mem_cons, List.not_mem_nil, or_false] at mem
    rcases mem with rfl | rfl | rfl
    · cases List.mem_singleton.mp named
      simp
    · cases List.mem_singleton.mp named
      simp
    · simp at target
  latches := by
    intro latch mem _
    cases List.mem_singleton.mp mem
    simp

theorem output_independent_of_side_input :
    sideInput.Resampled {"X"} sideOtherwise ∧
      ¬ sideInput.Cone (Bindings.empty.put "Invert" inversion) "Out" "X" ∧
      (standard sideInput).run.succeeds (.start (Bindings.empty.put "Invert" inversion)) = true ∧
      (standard sideOtherwise).run.succeeds (.start (Bindings.empty.put "Invert" inversion)) = true ∧
      ∃ trace,
        ((standard sideInput).run.after
          (.start (Bindings.empty.put "Invert" inversion))).results.output "Out" = .ok trace ∧
        ((standard sideOtherwise).run.after
          (.start (Bindings.empty.put "Invert" inversion))).results.output "Out" = .ok trace := by
  have resampled : sideInput.Resampled {"X"} sideOtherwise :=
    ⟨rfl, .cons ⟨rfl, rfl, fun _ => rfl⟩ (.cons ⟨rfl, rfl, fun other => absurd rfl other⟩ .nil)⟩
  have completed : (standard sideInput).run.succeeds
      (.start (Bindings.empty.put "Invert" inversion)) = true := by decide +kernel
  have outside : ¬ sideInput.Cone (Bindings.empty.put "Invert" inversion) "Out" "X" := by
    intro cone
    have inside := closed_sideInput.mem_of_cone (.inl rfl) cone
    simp at inside
  refine ⟨resampled, outside, completed, ?_⟩
  exact output_independent_outside_cone (standard sideInput) (standard sideOtherwise) resampled rfl
    (s := .start (Bindings.empty.put "Invert" inversion))
    (t := .start (Bindings.empty.put "Invert" inversion)) ⟨rfl, rfl⟩ ⟨rfl, rfl⟩
    (fun _ watching => nomatch watching) (fun _ watching => nomatch watching) (fun _ _ _ _ _ => rfl)
    List.mem_cons_self (fun _ changed => changed ▸ outside) completed

end Setup

end SyncCircuit
