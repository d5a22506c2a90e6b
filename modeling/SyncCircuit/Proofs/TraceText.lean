import SyncCircuit.Trace

/-! # The text of a trace

A trace is written as its signal, a separator and its bits. The signal may be any text, with separators and
bits of its own, but the bits contain no blank, so the last separator is always the one that was written
(`Trace.splitAtLast_text`). Splitting a text there (`Text.splitAtLast`) and reading the bits undoes the
writing, for every trace.
-/

namespace SyncCircuit

namespace Text

/-- What stands before and after the last place where a separator occurs. -/
def splitLast (separator : List Char) : List Char → Option (List Char × List Char)
  | [] => none
  | c :: rest =>
      match splitLast separator rest with
      | some (before, after) => some (c :: before, after)
      | none =>
          if separator.isPrefixOf (c :: rest) then some ([], (c :: rest).drop separator.length)
          else none

section Last

variable {separator text before after : List Char}

theorem splitLast_eq_none (h : splitLast separator text = none) (nonempty : separator ≠ []) :
    ¬ separator <:+: text := by
  induction text with
  | nil => simpa using nonempty
  | cons c rest ih =>
      rw [splitLast] at h
      split at h
      · cases h
      · rename_i absent
        split at h
        · cases h
        · rename_i notHere
          rw [List.infix_cons_iff, not_or]
          exact ⟨by simpa using notHere, ih absent⟩

theorem eq_append_of_splitLast (h : splitLast separator text = some (before, after)) :
    text = before ++ separator ++ after := by
  induction text generalizing before with
  | nil => cases h
  | cons c rest ih =>
      rw [splitLast] at h
      split at h
      · rename_i start _ found
        cases h
        rw [ih found]
        rfl
      · split at h
        · rename_i here
          cases h
          obtain ⟨tail, split⟩ := List.isPrefixOf_iff_prefix.mp here
          rw [← split]
          simp
        · cases h

theorem length_le_of_splitLast (h : splitLast separator text = some (before, after))
    (nonempty : separator ≠ []) {start rest : List Char} (split : text = start ++ separator ++ rest) :
    start.length ≤ before.length := by
  induction text generalizing before start with
  | nil => cases h
  | cons c more ih =>
      cases start with
      | nil => exact Nat.zero_le _
      | cons d start =>
          obtain ⟨-, later⟩ := List.cons.inj split
          rw [splitLast] at h
          split at h
          · rename_i found
            cases h
            exact Nat.succ_le_succ (ih found later)
          · rename_i absent
            exact absurd ⟨start, rest, later.symm⟩ (splitLast_eq_none absent nonempty)

theorem splitLast_eq_some_iff (nonempty : separator ≠ []) :
    splitLast separator text = some (before, after) ↔ text = before ++ separator ++ after ∧
      ∀ start rest, text = start ++ separator ++ rest → start.length ≤ before.length := by
  constructor
  · intro h
    exact ⟨eq_append_of_splitLast h, fun _ _ => length_le_of_splitLast h nonempty⟩
  · rintro ⟨split, last⟩
    cases found : splitLast separator text with
    | none => exact absurd ⟨before, after, split.symm⟩ (splitLast_eq_none found nonempty)
    | some parts =>
        have also := eq_append_of_splitLast found
        have same : before.length = parts.1.length :=
          Nat.le_antisymm (length_le_of_splitLast found nonempty split) (last _ _ also)
        rw [split, List.append_assoc, List.append_assoc] at also
        obtain ⟨first, more⟩ := List.append_inj also same
        rw [first, List.append_cancel_left more]

end Last

/-- The texts before and after the last separator of a text. -/
def splitAtLast (separator text : String) : Option (String × String) :=
  (splitLast separator.toList text.toList).map fun parts =>
    (String.ofList parts.1, String.ofList parts.2)

theorem splitAtLast_eq_some {separator text before after : String} :
    splitAtLast separator text = some (before, after) ↔
      splitLast separator.toList text.toList = some (before.toList, after.toList) := by
  rw [splitAtLast, Option.map_eq_some_iff]
  constructor
  · rintro ⟨parts, found, same⟩
    cases same
    simpa using found
  · intro found
    exact ⟨_, found, by simp⟩

/-- The text is split at a separator, and no separator starts later. -/
theorem splitAtLast_eq_some_iff {separator text before after : String} (nonempty : separator ≠ "") :
    splitAtLast separator text = some (before, after) ↔ text = before ++ separator ++ after ∧
      ∀ start rest : String, text = start ++ separator ++ rest → start.length ≤ before.length := by
  have letters : ∀ start rest : String, text = start ++ separator ++ rest ↔
      text.toList = start.toList ++ separator.toList ++ rest.toList := by
    intro start rest
    rw [← String.toList_inj, String.toList_append, String.toList_append]
  rw [splitAtLast_eq_some, splitLast_eq_some_iff (by simpa using nonempty), letters]
  refine and_congr_right fun _ => ⟨fun last start rest => ?_, fun last start rest => ?_⟩
  · rw [letters, ← String.length_toList, ← String.length_toList]
    exact last start.toList rest.toList
  · rw [String.length_toList]
    simpa [letters] using last (String.ofList start) (String.ofList rest)

end Text

namespace Trace

theorem bit_eq_zero_or_one (value : Bool) : bit value = '0' ∨ bit value = '1' := by
  cases value
  · exact .inl rfl
  · exact .inr rfl

theorem toList_bits (t : Trace) : t.bits.toList = t.values.map bit :=
  String.toList_ofList

theorem exists_ofBits_iff (signal b : String) :
    (∃ t, ofBits signal b = .ok t) ↔ ∀ c ∈ b.toList, c = '0' ∨ c = '1' := by
  constructor
  · rintro ⟨t, read⟩ c mem
    rw [← (ofBits_eq_ok_iff.mp read).2, toList_bits] at mem
    obtain ⟨value, -, rfl⟩ := List.mem_map.mp mem
    exact bit_eq_zero_or_one value
  · intro bits
    refine ⟨⟨signal, b.toList.map (· == '1')⟩, ofBits_eq_ok_iff.mpr ⟨rfl, ?_⟩⟩
    rw [← String.toList_inj, toList_bits, List.map_map]
    refine (List.map_congr_left fun c mem => ?_).trans (List.map_id _)
    rcases bits c mem with rfl | rfl
    · rfl
    · rfl

theorem text_of_ofBits {signal b : String} {t : Trace} (read : ofBits signal b = .ok t) :
    t.text = signal ++ " = " ++ b := by
  obtain ⟨rfl, rfl⟩ := ofBits_eq_ok_iff.mp read
  rfl

/-- The last separator in the text of a trace stands between its signal and its bits: a later one would
    end with a blank among the bits. -/
theorem splitAtLast_text (t : Trace) : Text.splitAtLast " = " t.text = some (t.signal, t.bits) := by
  refine (Text.splitAtLast_eq_some_iff (by decide)).mpr ⟨rfl, ?_⟩
  intro start rest split
  have letters := congrArg String.toList split
  simp only [text, String.toList_append, toList_bits] at letters
  rcases List.append_eq_append_iff.mp letters with ⟨inside, longer, bits⟩ | ⟨inside, shorter, -⟩
  · -- what the other separator reaches beyond this one is part of the bits
    cases last : inside.getLast? with
    | none =>
        rw [List.getLast?_eq_none_iff.mp last, List.append_nil] at longer
        have lengths := congrArg List.length longer
        simp only [List.length_append, String.length_toList] at lengths
        omega
    | some c =>
        have blank : c = ' ' := by
          have ends := congrArg List.getLast? longer
          rw [List.getLast?_append, List.getLast?_append, last] at ends
          simpa using ends.symm
        have among : c ∈ t.values.map bit :=
          bits ▸ List.mem_append_left _ (List.mem_of_getLast? last)
        obtain ⟨value, -, same⟩ := List.mem_map.mp among
        rw [blank] at same
        cases value <;> cases same
  · have lengths := congrArg List.length shorter
    simp only [List.length_append, String.length_toList] at lengths
    omega

theorem text_injective : Function.Injective text := by
  intro t t' same
  have parts := splitAtLast_text t
  rw [same, splitAtLast_text t', Option.some.injEq, Prod.mk.injEq] at parts
  have read := ofBits_bits t
  rw [← parts.1, ← parts.2, ofBits_bits t', Except.ok.injEq] at read
  exact read.symm

/-- A string can be read as the values of a signal exactly if it consists of bits, and the trace is then
    written as the signal and this string. The text of a trace determines it, whatever the signal is
    called: at its last separator it falls into the signal and bits from which the trace can be read. -/
theorem text_round_trip :
    (∀ signal b : String,
      ((∃ t, ofBits signal b = .ok t) ↔ ∀ c ∈ b.toList, c = '0' ∨ c = '1') ∧
      ∀ t, ofBits signal b = .ok t →
        t.text = signal ++ " = " ++ b ∧ ofSamples signal (t.values.map .bool) = .ok t) ∧
    Function.Injective text ∧
    ∀ t : Trace, ∃ b, Text.splitAtLast " = " t.text = some (t.signal, b) ∧
      ofBits t.signal b = .ok t := by
  refine ⟨fun signal b => ⟨exists_ofBits_iff signal b, fun t read => ⟨text_of_ofBits read, ?_⟩⟩,
    text_injective, fun t => ⟨t.bits, splitAtLast_text t, ofBits_bits t⟩⟩
  rw [← (ofBits_eq_ok_iff.mp read).1]
  exact ofSamples_bool t

theorem text_round_trip_nested :
    ofBits "a = 1 =" "01" = .ok ⟨"a = 1 =", [false, true]⟩ ∧
      (⟨"a = 1 =", [false, true]⟩ : Trace).text = "a = 1 = = 01" ∧
      Text.splitAtLast " = " "a = 1 = = 01" = some ("a = 1 =", "01") := by
  have read : ofBits "a = 1 =" "01" = .ok ⟨"a = 1 =", [false, true]⟩ :=
    ofBits_eq_ok_iff.mpr ⟨rfl, by decide⟩
  have written := ((text_round_trip.1 _ _).2 _ read).1
  obtain ⟨b, split, reread⟩ := text_round_trip.2.2 ⟨"a = 1 =", [false, true]⟩
  have same : b = "01" := by
    rw [← (ofBits_eq_ok_iff.mp reread).2, (ofBits_eq_ok_iff.mp read).2]
  rw [same, written] at split
  exact ⟨read, written, split⟩

end Trace

end SyncCircuit
