import SyncCircuit.Proofs.Failures
import SyncCircuit.Proofs.Results

/-! # The protocol of hooks

A monitor may count on the order in which it is called: at the start of a run, at the end of each cycle from
the first to the last, and at the end of the run (`Circuit.protocol`). A run may stop at any point, also
because the monitor objects, but it never leaves a call out, repeats one or makes one after an objection
(`Setup.hooks_follow_protocol`). The steps of a run are followed by the number of calls made so far
(`Setup.Heard`).
-/

namespace SyncCircuit

/-- What a call of the monitor is about. -/
inductive Stage where
  | start
  | cycle (index : Int)
  | finish
  deriving DecidableEq

def Hook.stage : Hook → Stage
  | .started _ _ => .start
  | .cycleEnded cycle _ => .cycle cycle
  | .finished _ _ => .finish

namespace Circuit

/-- The number of cycles of a complete run: as many as the first trace has samples, and at least one. -/
def cycleCount (c : Circuit) : Nat :=
  match c.traces with
  | [] => 1
  | first :: _ => max 1 first.length

/-- The calls of the monitor in a complete run. -/
def protocol (c : Circuit) : List Stage :=
  .start :: (List.range c.cycleCount).map (fun index => .cycle index) ++ [.finish]

theorem cycleCount_eq {c : Circuit} {length : Nat} (h : c.runLength = .ok length) :
    c.cycleCount = max 1 length := by
  obtain ⟨first, rest, traces, same⟩ := runLength_eq_ok h
  simp only [cycleCount, traces, same]

theorem length_protocol (c : Circuit) : c.protocol.length = c.cycleCount + 2 := by
  simp [protocol]

theorem protocol_cycle (c : Circuit) {index : Nat} (inside : index < c.cycleCount) :
    c.protocol[index + 1]? = some (.cycle index) := by
  rw [protocol, List.getElem?_append_left (by simpa using inside)]
  simp [inside]

theorem protocol_finish (c : Circuit) : c.protocol[c.cycleCount + 1]? = some .finish := by
  simp [protocol]

end Circuit

namespace Setup

open Operation

/-- From `s₀` on the monitor has been called at the first stages of a run, and has not objected. -/
def Heard (u : Setup) (s₀ : Session) (count : Nat) (s : Session) : Prop :=
  ∃ calls, s.hooks = s₀.hooks ++ calls ∧ calls.map Hook.stage = u.circuit.protocol.take count ∧
    ∀ occasion ∈ calls, u.settings.monitor.objection occasion = none

/-- A run from `s₀` has ended early: between two calls, or at one to which the monitor objected. -/
inductive CutShort (u : Setup) (s₀ s : Session) : Prop where
  | between {count} (heard : u.Heard s₀ count s) (early : count < u.circuit.cycleCount + 2)
  | objection {count calls last reason} (hooks : s.hooks = s₀.hooks ++ (calls ++ [last]))
      (stages : (calls ++ [last]).map Hook.stage = u.circuit.protocol.take count)
      (earlier : ∀ occasion ∈ calls, u.settings.monitor.objection occasion = none)
      (objected : u.settings.monitor.objection last = some reason)

variable {u : Setup} {s₀ s t : Session} {count : Nat}

theorem Heard.of_hooks (heard : u.Heard s₀ count s) (same : t.hooks = s.hooks) : u.Heard s₀ count t := by
  rw [Heard, same]
  exact heard

theorem Heard.announce (heard : u.Heard s₀ count s) (occasion : Hook)
    (next : u.circuit.protocol[count]? = some occasion.stage) :
    (u.announce occasion).Ensures s
      (fun _ t => u.Heard s₀ (count + 1) t ∧ t.simulator = s.simulator) fun _ t => u.CutShort s₀ t := by
  obtain ⟨calls, hooks, stages, unopposed⟩ := heard
  have more : (u.tell occasion s).hooks = s₀.hooks ++ (calls ++ [occasion]) := by
    rw [hooks_tell, hooks, List.append_assoc]
  have further : (calls ++ [occasion]).map Hook.stage = u.circuit.protocol.take (count + 1) := by
    rw [List.map_append, stages, List.take_add_one, next]
    rfl
  rw [Ensures, announce_eq]
  cases objection : u.settings.monitor.objection occasion with
  | some reason => exact .objection more further unopposed objection
  | none =>
      refine ⟨⟨_, more, further, fun other mem => ?_⟩, rfl⟩
      rcases List.mem_append.mp mem with old | new
      · exact unopposed other old
      · rw [List.mem_singleton.mp new, objection]

theorem Heard.endCycle {index : Nat} (heard : u.Heard s₀ (index + 1) s)
    (inside : index < u.circuit.cycleCount) :
    (u.endCycle index).Ensures s
      (fun _ t => u.Heard s₀ (index + 2) t ∧ t.simulator.length = s.simulator.length)
      fun _ t => u.CutShort s₀ t := by
  apply ensures_recordOutputs
  · intro signal _ _ history
    exact .between (heard.of_hooks rfl) (by omega)
  · intro _
    apply ensures_get
    have recorded : u.Heard s₀ (index + 1) { s with simulator := s.simulator.recorded } :=
      heard.of_hooks rfl
    apply (recorded.announce (.cycleEnded index s.simulator.vars) (u.circuit.protocol_cycle inside)).mono
    · rintro _ t ⟨more, simulator⟩
      rw [simulator]
      exact ⟨more, rfl⟩
    · exact fun _ _ cut => cut

theorem Heard.firstCycle (heard : u.Heard s₀ 1 s) :
    u.firstCycle.Ensures s
      (fun _ t => u.Heard s₀ 2 t ∧ u.circuit.runLength = .ok t.simulator.length)
      fun _ t => u.CutShort s₀ t := by
  have stopped : ∀ {t : Session}, t.hooks = s.hooks → u.CutShort s₀ t := fun same =>
    .between (heard.of_hooks same) (by omega)
  apply ensures_opening
  · exact fun _ _ _ => stopped rfl
  · exact fun _ _ _ => stopped rfl
  · exact fun _ _ _ _ => stopped rfl
  · exact fun _ _ _ _ _ => stopped rfl
  · intro vars length _ settled _
    have first : 0 < u.circuit.cycleCount := by
      rw [Circuit.cycleCount_eq settled]
      omega
    have ready : u.Heard s₀ 1 (u.ready s vars length) := heard.of_hooks rfl
    apply (ready.endCycle first).mono
    · rintro _ t ⟨more, same⟩
      exact ⟨more, settled.trans (congrArg Except.ok same.symm)⟩
    · exact fun _ _ cut => cut
  · rintro t r ⟨more, settled⟩ alike _
    exact ⟨more.of_hooks alike.hooks, alike.simulator ▸ settled⟩

theorem Heard.nextCycle {index : Nat} (heard : u.Heard s₀ (index + 1) s)
    (inside : index < u.circuit.cycleCount) :
    (u.nextCycle index).Ensures s (fun _ t => u.Heard s₀ (index + 2) t) fun _ t => u.CutShort s₀ t := by
  apply ensures_advance
  · intro e vars _
    exact .between (heard.of_hooks rfl) (by omega)
  · intro vars _
    have ready : u.Heard s₀ (index + 1) (s.withVars vars) := heard.of_hooks rfl
    exact (ready.endCycle inside).mono (fun _ _ ended => ended.1) fun _ _ cut => cut

theorem Heard.laterCycles {index left : Nat} (heard : u.Heard s₀ (index + 1) s)
    (total : index + left ≤ u.circuit.cycleCount) :
    (u.laterCycles (List.range' index left)).Ensures s
      (fun _ t => u.Heard s₀ (index + left + 1) t) fun _ t => u.CutShort s₀ t := by
  -- the start was announced as well, so the calls are always one ahead of the index of the next cycle
  induction left generalizing index s with
  | zero => exact heard
  | succ left ih =>
      rw [List.range'_succ]
      apply (ensures_progress (u := u) _).bind
      intro _ t alike
      apply ((heard.of_hooks alike.hooks).nextCycle (by omega)).bind
      intro _ r ended
      have dumped : (u.continueDump index).Ensures r (fun _ q => u.Heard s₀ (index + 2) q)
          fun _ q => u.CutShort s₀ q := by
        apply (u.ensures_continueDump r index).mono
        · exact fun _ _ alike => ended.of_hooks alike.hooks
        · exact fun _ _ failed => .between (ended.of_hooks failed.1.hooks)
            (by omega)
      apply dumped.bind
      intro _ q going
      have rest := ih going (by omega)
      rwa [Nat.add_right_comm index 1 left] at rest

/-- A run that succeeds has made all calls, and a run that fails was cut short. -/
theorem ensures_run_heard (u : Setup) (s : Session) :
    u.run.Ensures s (fun _ t => u.Heard s u.circuit.protocol.length t) fun _ t => u.CutShort s t := by
  have silent : u.Heard s 0 s := ⟨[], by simp, rfl, fun _ mem => nomatch mem⟩
  apply ensures_get
  apply (silent.announce (.started u.circuit.name s.results) rfl).bind
  rintro _ t ⟨started, -⟩
  apply started.firstCycle.bind
  rintro _ t ⟨first, settled⟩
  have count := Circuit.cycleCount_eq settled
  have dumped : u.startDump.Ensures t
      (fun _ r => u.Heard s 2 r ∧ r.simulator.length = t.simulator.length) fun _ r => u.CutShort s r := by
    apply (u.ensures_startDump t).mono
    · exact fun _ _ alike => ⟨first.of_hooks alike.hooks, congrArg Simulator.length alike.simulator⟩
    · exact fun _ _ failed => .between (first.of_hooks failed.1.hooks)
        (by omega)
  apply dumped.bind
  rintro _ r ⟨going, same⟩
  apply ensures_get
  -- the first cycle takes place even if the traces are empty
  have total : 1 + (r.simulator.length - 1) = u.circuit.cycleCount := by omega
  apply (going.laterCycles (Nat.le_of_eq total)).bind
  intro _ q last
  rw [total] at last
  apply ensures_modify
  apply ensures_get
  have published : u.Heard s (u.circuit.cycleCount + 1) (publish.after q) := last.of_hooks rfl
  apply (published.announce (.finished u.circuit.name (publish.after q).results)
    u.circuit.protocol_finish).mono
  · exact fun _ _ ended => u.circuit.length_protocol ▸ ended.1
  · exact fun _ _ cut => cut

theorem Obstacle.eq_nil_of_refusal {values : List (Bindings Bool)} {e : SimError}
    (obstacle : u.Obstacle s₀ values e) (refusal : e.refuses = true) : values = [] := by
  cases obstacle with
  | malformed => rfl
  | lengths => rfl
  | first => rfl
  | next _ _ _ _ failure =>
      rcases Circuit.nextPhase_error failure with ⟨_, -, -, cause⟩ | ⟨x, -, failed⟩ | ⟨_, _, -, -, failed⟩
      · rw [cause] at refusal
        cases refusal
      · rw [(Circuit.sampleAt_error failed).1] at refusal
        cases refusal
      · obtain ⟨_, cause⟩ := Phase.applyUpdates_error failed
        rw [cause] at refusal
        cases refusal
  | output => cases refusal
  | objection => cases refusal
  | dump unread =>
      obtain ⟨-, _, cause⟩ := unread
      rw [cause] at refusal
      cases refusal

theorem CutShort.calls (cut : u.CutShort s₀ s) :
    ∃ calls, s.hooks = s₀.hooks ++ calls ∧ calls.map Hook.stage <+: u.circuit.protocol ∧
      ¬ (calls.map Hook.stage = u.circuit.protocol ∧
        ∀ occasion ∈ calls, u.settings.monitor.objection occasion = none) ∧
      ∀ earlier last, calls = earlier ++ [last] →
        ∀ occasion ∈ earlier, u.settings.monitor.objection occasion = none := by
  cases cut with
  | between heard early =>
      obtain ⟨calls, hooks, stages, unopposed⟩ := heard
      refine ⟨calls, hooks, stages ▸ List.take_prefix _ _, ?_, ?_⟩
      · rintro ⟨complete, -⟩
        have lengths := congrArg List.length (stages.symm.trans complete)
        rw [List.length_take, Circuit.length_protocol] at lengths
        omega
      · rintro earlier last rfl occasion mem
        exact unopposed occasion (List.mem_append_left _ mem)
  | @objection _ calls last reason hooks stages unopposed objected =>
      refine ⟨calls ++ [last], hooks, stages ▸ List.take_prefix _ _, ?_, ?_⟩
      · rintro ⟨-, silent⟩
        have none := silent last (List.mem_append_right _ (List.mem_singleton_self last))
        rw [objected] at none
        cases none
      · intro earlier final split
        obtain ⟨rfl, -⟩ := List.append_inj' split rfl
        exact unopposed

/-- The calls that a run makes are the first ones of the protocol, and none follows an objection. The run
    succeeds exactly if it makes all of them and the monitor objects to none. If it fails because the
    circuit or its traces are refused, it has announced its start and nothing more. -/
theorem hooks_follow_protocol (u : Setup) (s : Session) :
    ∃ calls, (u.run.after s).hooks = s.hooks ++ calls ∧
      calls.map Hook.stage <+: u.circuit.protocol ∧
      (u.run.succeeds s = true ↔ calls.map Hook.stage = u.circuit.protocol ∧
        ∀ occasion ∈ calls, u.settings.monitor.objection occasion = none) ∧
      (∀ earlier last, calls = earlier ++ [last] →
        ∀ occasion ∈ earlier, u.settings.monitor.objection occasion = none) ∧
      ∀ e, u.run.ending s = .error e → e.refuses = true →
        calls = [.started u.circuit.name s.results] := by
  unfold Operation.after Operation.succeeds Operation.ending
  cases found : u.run s with
  | ok _ t =>
      obtain ⟨calls, hooks, stages, unopposed⟩ := (u.ensures_run_heard s).of_ok found
      rw [List.take_length] at stages
      refine ⟨calls, hooks, stages ▸ List.prefix_rfl, ⟨fun _ => ⟨stages, unopposed⟩, fun _ => rfl⟩, ?_, ?_⟩
      · rintro earlier last rfl occasion mem
        exact unopposed occasion (List.mem_append_left _ mem)
      · exact fun e failed => nomatch failed
  | error e t =>
      obtain ⟨calls, hooks, stages, incomplete, earlier⟩ := ((u.ensures_run_heard s).of_error found).calls
      refine ⟨calls, hooks, stages, iff_of_false Bool.false_ne_true incomplete, earlier, ?_⟩
      intro e' failed refusal
      cases failed
      rcases (u.ensures_run s).of_error found with ⟨values, told, obstacle⟩ | ⟨-, reason, -, cause⟩
      · cases obstacle.eq_nil_of_refusal refusal
        exact List.append_cancel_left (hooks.symm.trans told.hooks)
      · rw [cause] at refusal
        cases refusal

end Setup

end SyncCircuit
