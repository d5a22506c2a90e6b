import Mathlib.Data.List.Nodup
import SyncCircuit.Proofs.Blocks

/-! # Identifiers of registered channels

Channels are registered at any time in the life of a dump, and between registrations files are opened and
closed, values are written and identifiers are given out for other purposes (`Dump.Reachable`). Every dump
that is or was in use on a bench is of this kind (`Bench.Reachable.dumps`). The identifiers of the channels
are always those of ascending numbers below the next one (`Dump.Labelled`). They are therefore distinct, and
a line with a value tells which value it is and of which channel.
-/

namespace SyncCircuit

namespace Identifier

theorem ofNat_ne_empty (n : Nat) : ofNat n ≠ "" := by
  intro empty
  have letters := congrArg String.toList empty
  rw [ofNat, String.toList_ofList, String.toList_empty, List.map_eq_nil_iff] at letters
  exact digits_ne_nil n letters

theorem mem_alphabet_of_mem_ofNat {n : Nat} : ∀ c ∈ (ofNat n).toList, c ∈ alphabet := by
  intro c mem
  rw [ofNat, String.toList_ofList] at mem
  obtain ⟨digit, inside, rfl⟩ := List.mem_map.mp mem
  exact letter_mem_alphabet (digits_lt n digit inside)

theorem head?_ofNat_iff (n : Nat) : (ofNat n).toList.head? = alphabet.head? ↔ n = 0 := by
  obtain ⟨first, rest, split⟩ := List.exists_cons_of_ne_nil (digits_ne_nil n)
  have small : first < base := digits_lt n first (by simp [split])
  have zero : alphabet.head? = some (letter 0) := by decide +kernel
  have letters : letter first = letter 0 ↔ first = 0 := by
    constructor
    · intro same
      rw [← idxOf_letter first small, same, idxOf_letter 0 (by decide)]
    · exact fun same => same ▸ rfl
  rw [← head?_digits_eq_zero_iff, ofNat, String.toList_ofList, zero, split, List.map_cons,
    List.head?_cons, List.head?_cons, Option.some.injEq, Option.some.injEq, letters]

end Identifier

theorem Command.text_value_inj {bit bit' : Bool} {id id' : String}
    (h : (Command.value bit id).text = (Command.value bit' id').text) : bit = bit' ∧ id = id' := by
  have line : ∀ (b : Bool) (i : String), (Command.value b i).text.toList =
      (if b then '1' else '0') :: (i.toList ++ ['\n']) := by
    intro b i
    rw [text_value, String.toList_append, String.toList_append]
    cases b <;> simp
  have letters := congrArg String.toList h
  rw [line, line, List.cons.injEq, List.append_cancel_right_eq] at letters
  refine ⟨?_, String.toList_injective letters.2⟩
  cases bit <;> cases bit' <;> simp_all

namespace Dump

/-- What can become of a dump whose channels can be read whenever it writes their values. -/
inductive Reachable : Dump → Prop where
  | new : Reachable {}
  | openFile {d} (earlier : Reachable d) : Reachable d.openFile
  | close {d} (earlier : Reachable d) : Reachable d.close
  | skipIds {d} (earlier : Reachable d) (count : Nat) : Reachable (d.skipIds count)
  | register {d} (earlier : Reachable d) (name : String) (isLatchOutput : Bool) (path : List String)
      (source : Nat) : Reachable (d.register name isLatchOutput path source)
  | dumpInitial {ε d d'} {read : Channel → Except ε Bool} {stamp : Int} (earlier : Reachable d)
      (dumped : d.dumpInitial read stamp = .ok d') : Reachable d'
  | dumpChanges {ε d d'} {read : Channel → Except ε Bool} {stamp : Int} (earlier : Reachable d)
      (dumped : d.dumpChanges read stamp = .ok d') : Reachable d'

/-- The channels have the identifiers of ascending numbers, all of which were given out. -/
structure Labelled (d : Dump) (numbers : List Nat) : Prop where
  ids : d.channels.map (·.id) = numbers.map Identifier.ofNat
  ascending : numbers.Pairwise (· < ·)
  issued : ∀ n ∈ numbers, n < d.issued

namespace Labelled

variable {d d' : Dump} {numbers : List Nat}

theorem nodup (labelled : d.Labelled numbers) : (d.channels.map (·.id)).Nodup := by
  rw [labelled.ids]
  have distinct : numbers.Nodup := labelled.ascending.imp Nat.ne_of_lt
  exact distinct.map fun _ _ same => Identifier.ofNat_injective same

theorem skipIds (labelled : d.Labelled numbers) (count : Nat) : (d.skipIds count).Labelled numbers where
  ids := labelled.ids
  ascending := labelled.ascending
  issued n mem := Nat.lt_add_right count (labelled.issued n mem)

theorem register (labelled : d.Labelled numbers) (name : String) (isLatchOutput : Bool)
    (path : List String) (source : Nat) :
    (d.register name isLatchOutput path source).Labelled (numbers ++ [d.issued]) where
  ids := by
    simp only [Dump.register, List.map_append, labelled.ids]
    rfl
  ascending := by
    rw [List.pairwise_append]
    refine ⟨labelled.ascending, List.pairwise_singleton _ _, ?_⟩
    intro n mem last here
    rw [List.mem_singleton.mp here]
    exact labelled.issued n mem
  issued := by
    intro n mem
    rcases List.mem_append.mp mem with old | new
    · exact Nat.lt_succ_of_lt (labelled.issued n old)
    · rw [List.mem_singleton.mp new]
      exact Nat.lt_succ_self d.issued

theorem wrote {now : Channel → Option Bool} {commands : List Command} {declared : Bool}
    (labelled : d.Labelled numbers) (wrote : d.Wrote now commands declared d') :
    d'.Labelled numbers where
  ids := by
    rw [wrote.channels_eq, ← labelled.ids, List.map_map]
    rfl
  ascending := labelled.ascending
  issued n mem := by
    rw [wrote.issued_eq]
    exact labelled.issued n mem

end Labelled

theorem Reachable.labelled {d : Dump} (reachable : d.Reachable) : ∃ numbers, d.Labelled numbers := by
  induction reachable with
  | new => exact ⟨[], rfl, .nil, by simp⟩
  | openFile _ ih =>
      obtain ⟨numbers, labelled⟩ := ih
      exact ⟨numbers, labelled.ids, labelled.ascending, labelled.issued⟩
  | close _ ih =>
      obtain ⟨numbers, labelled⟩ := ih
      exact ⟨numbers, labelled.ids, labelled.ascending, labelled.issued⟩
  | skipIds _ count ih =>
      obtain ⟨numbers, labelled⟩ := ih
      exact ⟨numbers, labelled.skipIds count⟩
  | register _ name isLatchOutput path source ih =>
      obtain ⟨numbers, labelled⟩ := ih
      exact ⟨_, labelled.register name isLatchOutput path source⟩
  | @dumpInitial _ d _ _ _ _ dumped ih =>
      obtain ⟨numbers, labelled⟩ := ih
      cases opened : d.isOpen with
      | true => exact ⟨numbers, labelled.wrote (dumpInitial_ok opened dumped)⟩
      | false =>
          rw [dumpInitial_closed opened dumped]
          exact ⟨numbers, labelled⟩
  | @dumpChanges _ d _ _ _ _ dumped ih =>
      obtain ⟨numbers, labelled⟩ := ih
      cases opened : d.isOpen with
      | true => exact ⟨numbers, labelled.wrote (dumpChanges_ok opened dumped)⟩
      | false =>
          rw [dumpChanges_closed opened dumped]
          exact ⟨numbers, labelled⟩

theorem Reachable.nodup_ids {d : Dump} (reachable : d.Reachable) :
    (d.channels.map (·.id)).Nodup := by
  obtain ⟨numbers, labelled⟩ := reachable.labelled
  exact labelled.nodup

/-- The line with a value tells the value and the place of the channel among those registered. -/
theorem Reachable.value_line_inj {d : Dump} (reachable : d.Reachable) {i j : Nat} {c c' : Channel}
    {bit bit' : Bool} (first : d.channels[i]? = some c) (second : d.channels[j]? = some c')
    (same : (valueCommand c bit).text = (valueCommand c' bit').text) : bit = bit' ∧ i = j := by
  obtain ⟨bits, ids⟩ := Command.text_value_inj same
  refine ⟨bits, ?_⟩
  have inside : i < (d.channels.map (·.id)).length := by
    rw [List.length_map]
    exact (List.getElem?_eq_some_iff.mp first).1
  apply (List.getElem?_inj inside reachable.nodup_ids).mp
  rw [List.getElem?_map, List.getElem?_map, first, second]
  exact congrArg some ids

/-- The identifier of every number is a numeral of base sixty-four without leading zeros, from which the
    number can be read. In the life of a dump no two channels are called alike, and the line with a value
    determines the value and the channel, although identifiers may themselves start with a `0` or `1`. -/
theorem identifiers_decodable :
    (∀ n, Identifier.ofNat n ≠ "" ∧
      (∀ c ∈ (Identifier.ofNat n).toList, c ∈ Identifier.alphabet) ∧
      Identifier.toNat (Identifier.ofNat n) = n ∧
      ((Identifier.ofNat n).toList.head? = Identifier.alphabet.head? ↔ n = 0)) ∧
    ∀ d : Dump, d.Reachable → (d.channels.map (·.id)).Nodup ∧
      ∀ (i j : Nat) c c' bit bit', d.channels[i]? = some c → d.channels[j]? = some c' →
        (valueCommand c bit).text = (valueCommand c' bit').text → bit = bit' ∧ i = j := by
  constructor
  · intro n
    exact ⟨Identifier.ofNat_ne_empty n, Identifier.mem_alphabet_of_mem_ofNat,
      Identifier.toNat_ofNat n, Identifier.head?_ofNat_iff n⟩
  · intro d reachable
    refine ⟨reachable.nodup_ids, ?_⟩
    intro i j c c' bit bit' first second same
    exact reachable.value_line_inj first second same

/-- Two channels whose identifiers look like values. -/
private def digitLike : Dump :=
  ((({} : Dump).skipIds 52).register "A" false ["top"] 0).register "B" true ["top"] 0

theorem identifiers_decodable_digits :
    digitLike.Reachable ∧ digitLike.channels.map (·.id) = ["0", "1"] ∧
      Identifier.ofNat (Identifier.toNat "ba") = "ba" ∧
      ∀ c c' bit bit', digitLike.channels[0]? = some c → digitLike.channels[1]? = some c' →
        (valueCommand c bit).text ≠ (valueCommand c' bit').text := by
  have reachable : digitLike.Reachable := ((Reachable.new.skipIds 52).register ..).register ..
  refine ⟨reachable, by decide +kernel, by decide +kernel, ?_⟩
  intro c c' bit bit' first second same
  have places := ((identifiers_decodable.2 digitLike reachable).2 0 1 c c' bit bit' first second same).2
  cases places

end Dump

end SyncCircuit
