import SyncCircuit.Datum

/-! # Traces

A signal with its value in every cycle, starting with cycle zero. Traces are read from a string of
bits or from a list of samples, and written as the signal, an equals sign and the bits.
-/

namespace SyncCircuit

/-- The values of a signal, cycle by cycle. -/
structure Trace where
  signal : String
  values : List Bool := []
  deriving DecidableEq, Inhabited, Repr

inductive TraceError where
  /-- A sample is neither a truth value nor one of the integers zero and one. -/
  | invalidSample (sample : Datum) (signal : String)
  /-- A character is neither `0` nor `1`. -/
  | invalidBit (bit : Char) (signal : String)

def TraceError.message : TraceError → String
  | .invalidSample sample signal =>
      "Invalid sample " ++ sample.describe ++ " in trace for '" ++ signal ++ "'"
  | .invalidBit bit signal =>
      "Invalid bit " ++ Text.quoted (String.singleton bit) ++ " in trace for '" ++ signal ++ "'"

namespace Trace

def length (t : Trace) : Nat :=
  t.values.length

def bit (value : Bool) : Char :=
  if value then '1' else '0'

def bit? (c : Char) : Option Bool :=
  if c = '1' then some true else if c = '0' then some false else none

@[simp]
theorem bit?_bit (value : Bool) : bit? (bit value) = some value := by
  cases value <;> rfl

theorem bit?_eq_some_iff {c : Char} {value : Bool} : bit? c = some value ↔ c = bit value := by
  constructor
  · intro h
    unfold bit? at h
    split at h
    · cases h; assumption
    · split at h
      · cases h; assumption
      · cases h
  · rintro rfl
    exact bit?_bit value

/-- Read the values of a string of bits; the first character that is no bit is reported. -/
def readBits (signal : String) : List Char → Except TraceError (List Bool)
  | [] => .ok []
  | c :: rest =>
      match bit? c with
      | none => .error (.invalidBit c signal)
      | some value => (readBits signal rest).map (value :: ·)

def ofBits (signal bits : String) : Except TraceError Trace :=
  (readBits signal bits.toList).map (Trace.mk signal)

/-- Read the values of samples; the first that is not valid is reported. -/
def readSamples (signal : String) : List Datum → Except TraceError (List Bool)
  | [] => .ok []
  | sample :: rest =>
      match sample.sample? with
      | none => .error (.invalidSample sample signal)
      | some value => (readSamples signal rest).map (value :: ·)

def ofSamples (signal : String) (samples : List Datum) : Except TraceError Trace :=
  (readSamples signal samples).map (Trace.mk signal)

def bits (t : Trace) : String :=
  String.ofList (t.values.map bit)

/-- The text of a trace: signal and bits. -/
def text (t : Trace) : String :=
  t.signal ++ " = " ++ t.bits

def describe (t : Trace) : String :=
  "Trace(signal=" ++ Text.quoted t.signal ++ ", values=" ++
    Text.parenthesized (t.values.map fun value => (Datum.bool value).describe) ++ ")"

/-- The least index at which a trace can be asked for a value: indices are signed numbers of
    sixty-four bits. -/
def leastIndex : Int := -9223372036854775808

/-- The value at an index. A negative index counts from the end, where `-1` is the last value. -/
def sample? (t : Trace) : Int → Option Bool
  | .ofNat i => t.values[i]?
  | .negSucc i => t.values.reverse[i]?

theorem sample?_ofNat (t : Trace) (i : Nat) : t.sample? i = t.values[i]? := rfl

theorem readBits_map_bit (signal : String) (values : List Bool) :
    readBits signal (values.map bit) = .ok values := by
  induction values with
  | nil => rfl
  | cons value rest ih => simp [readBits, ih, Except.map]

@[simp]
theorem ofBits_bits (t : Trace) : ofBits t.signal t.bits = .ok t := by
  simp [ofBits, bits, readBits_map_bit, Except.map]

theorem eq_map_bit_of_readBits {signal : String} {cs : List Char} {values : List Bool}
    (h : readBits signal cs = .ok values) : cs = values.map bit := by
  induction cs generalizing values with
  | nil => cases h; rfl
  | cons c rest ih =>
      cases hc : bit? c with
      | none => simp [readBits, hc] at h
      | some value =>
          cases hr : readBits signal rest with
          | error e => simp [readBits, hc, hr, Except.map] at h
          | ok more =>
              simp only [readBits, hc, hr, Except.map, Except.ok.injEq] at h
              subst h
              rw [List.map_cons, ← ih hr, bit?_eq_some_iff.mp hc]

theorem ofSamples_bool (t : Trace) : ofSamples t.signal (t.values.map .bool) = .ok t := by
  have read : ∀ values : List Bool, readSamples t.signal (values.map .bool) = .ok values := by
    intro values
    induction values with
    | nil => rfl
    | cons value rest ih => simp [readSamples, Datum.sample?, ih, Except.map]
  simp [ofSamples, read, Except.map]

/-- A string of bits is read as the trace whose bits it is, and no other string is read. -/
theorem ofBits_eq_ok_iff {signal s : String} {t : Trace} :
    ofBits signal s = .ok t ↔ t.signal = signal ∧ t.bits = s := by
  constructor
  · intro h
    unfold ofBits at h
    cases hr : readBits signal s.toList with
    | error e => simp [hr, Except.map] at h
    | ok values =>
        simp only [hr, Except.map, Except.ok.injEq] at h
        subst h
        refine ⟨rfl, ?_⟩
        rw [bits, ← eq_map_bit_of_readBits hr, String.ofList_toList]
  · rintro ⟨rfl, rfl⟩
    exact ofBits_bits t

end Trace

end SyncCircuit
