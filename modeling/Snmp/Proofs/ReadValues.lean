/-
  Snmp/Proofs/ReadValues.lean
  ===========================
  **What is read can be written.**

  A reader takes more forms than a writer produces: padded numbers and lengths, subidentifiers
  that begin with empty digits, content in an exception marker, octets behind the last field.
  Whatever form it took, the data that it yields is data that a writer does not confuse with
  other data (`Transmissible`): the arcs of an identifier were split from a first subidentifier,
  and Opaque content that begins with the mark of a number has become that number.

  The second thing to know is how long the data becomes when it is written.  A writer never
  needs more than eight times the octets that were read (`Eightfold`), as long as these are no
  more than a datagram holds; the factor leaves room for the length octets, which a writer may
  need more of than there were.
-/
import Snmp.Proofs.Consumption
import Snmp.Proofs.PduRoundTrip

namespace Snmp

open Ber Decoder

/-! ### Object identifiers -/

namespace Oid

theorem length_continued_le {k : Nat} : ∀ {n : Nat}, n < Nat.pow 128 (k + 1) →
    (continued n).length ≤ k + 1 := by
  induction k with
  | zero =>
    intro n h
    rw [continued, if_pos (by simpa using h)]
    simp
  | succ k ih =>
    intro n h
    rw [continued]
    split
    · simp
    · have hdigits : n / 128 < Nat.pow 128 (k + 1) := Nat.div_lt_of_lt_mul (by
        simpa only [Nat.pow_eq, Nat.pow_succ, Nat.mul_comm] using h)
      have := ih hdigits
      simp only [List.length_append, List.length_singleton]
      omega

theorem length_subidentifier_le {n : Nat} (h : n ≤ maxSubidentifier) :
    (subidentifier n).length ≤ 5 := by
  rw [subidentifier]
  split
  · simp
  · have hmax : maxSubidentifier = 4294967375 := rfl
    have hdigits : n / 128 < Nat.pow 128 (3 + 1) := by
      have hpow : Nat.pow 128 (3 + 1) = 268435456 := rfl
      omega
    have := length_continued_le hdigits
    simp only [List.length_append, List.length_singleton]
    omega

theorem length_flatMap_subidentifier_le {values : List Nat}
    (h : ∀ n ∈ values, n ≤ maxSubidentifier) :
    (values.flatMap subidentifier).length ≤ 5 * values.length := by
  induction values with
  | nil => simp
  | cons n values ih =>
    have hfirst := length_subidentifier_le (h n (by simp))
    have hrest := ih (fun m hm => h m (by simp [hm]))
    simp only [List.flatMap_cons, List.length_append, List.length_cons]
    omega

/-- Two arcs share the first subidentifier, so there are fewer of these than arcs. -/
theorem length_content_le {oid : Oid} (h : oid.isEncodable = true) :
    oid.content.length + 5 ≤ 5 * oid.length := by
  obtain ⟨arcs⟩ := oid
  match arcs, h with
  | [], h => simp [isEncodable] at h
  | [_], h => simp [isEncodable] at h
  | first :: second :: rest, h =>
    have hvalues : ∀ n ∈ subidentifierValues ⟨first :: second :: rest⟩, n ≤ maxSubidentifier := by
      intro n hn
      rw [subidentifierValues, List.mem_cons, List.mem_map] at hn
      rcases hn with rfl | ⟨arc, _, rfl⟩
      · exact fold_le_maxSubidentifier h
      · exact le_maxSubidentifier arc
    have hlength := length_flatMap_subidentifier_le hvalues
    simp only [subidentifierValues, List.length_cons, List.length_map] at hlength
    simp only [content, subidentifierValues, length, List.length_cons]
    omega

theorem isEncodable_splitFirst {value : Nat} (h : value ≤ maxSubidentifier) :
    isEncodable ⟨splitFirst value⟩ = true := by
  have hmax : maxSubidentifier = 4294967375 := rfl
  rw [splitFirst]
  split
  · simp only [isEncodable, Bool.or_eq_true, Bool.and_eq_true, decide_eq_true_eq,
      UInt32.lt_iff_toNat_lt]
    right
    refine ⟨by decide, ?_⟩
    rw [UInt32.toNat_ofNat_of_lt' (by simp only [UInt32.size]; omega)]
    assumption
  · split
    · simp only [isEncodable, Bool.or_eq_true, Bool.and_eq_true, decide_eq_true_eq,
        UInt32.lt_iff_toNat_lt]
      right
      refine ⟨by decide, ?_⟩
      rw [UInt32.toNat_ofNat_of_lt' (by simp only [UInt32.size]; omega)]
      have hforty : (40 : UInt32).toNat = 40 := rfl
      omega
    · simp [isEncodable]

/-- Arcs after the second do not matter to the check of the registry. -/
theorem isEncodable_append {arcs : List UInt32} (h : isEncodable ⟨arcs⟩ = true)
    (more : List UInt32) : isEncodable ⟨arcs ++ more⟩ = true := by
  match arcs, h with
  | [], h => simp [isEncodable] at h
  | [_], h => simp [isEncodable] at h
  | first :: second :: rest, h => exact h

theorem length_splitFirst (value : Nat) : (splitFirst value).length = 2 := by
  rw [splitFirst]
  split
  · rfl
  · split <;> rfl

/-- A complete subidentifier leaves arcs that pass the check of the registry: the first one by
    the way it is split, any other because it does not touch the first two arcs. -/
theorem isEncodable_appendArcs {read arcs : List UInt32} {value : Nat}
    (hread : read ≠ [] → isEncodable ⟨read.reverse⟩ = true) (hmax : value ≤ maxSubidentifier)
    (h : appendArcs read value = .ok arcs) :
    isEncodable ⟨arcs.reverse⟩ = true ∧ arcs.length ≤ max read.length 1 + 1 := by
  cases read with
  | nil =>
    cases h
    constructor
    · rw [List.reverse_reverse]
      exact isEncodable_splitFirst hmax
    · simp [length_splitFirst]
  | cons last read =>
    simp only [appendArcs] at h
    split at h
    · cases h
      constructor
      · rw [List.reverse_cons]
        exact isEncodable_append (hread (by simp)) _
      · simp
    · contradiction

/-- The arcs that are read pass the check of the registry, are no more than may be read, and
    there is at most one more of them than octets.  By induction on the octets: what has been
    read so far passes the check as soon as it is not empty. -/
theorem readArcs_eq_ok {octets : Octets} : ∀ {read arcs : List UInt32} {unfinished : Option Nat},
    (read ≠ [] → isEncodable ⟨read.reverse⟩ = true) → read.length ≤ maxArcs →
    readArcs read unfinished octets = .ok arcs →
    isEncodable ⟨arcs⟩ = true ∧ arcs.length ≤ maxArcs ∧
      arcs.length ≤ max read.length 1 + octets.length := by
  induction octets with
  | nil =>
    intro read arcs unfinished hread hshort h
    rw [readArcs] at h
    split at h
    · contradiction
    · rename_i hcomplete
      cases h
      have hne : read ≠ [] := by
        intro hempty
        rw [hempty] at hcomplete
        simp at hcomplete
      refine ⟨hread hne, ?_, ?_⟩
      · rw [List.length_reverse]
        exact hshort
      · simp only [List.length_reverse, List.length_nil]
        omega
  | cons octet rest ih =>
    intro read arcs unfinished hread hshort h
    simp only [readArcs] at h
    split at h
    · contradiction
    rename_i hmax
    split at h
    · have hrest := ih hread hshort h
      simp only [List.length_cons]
      exact ⟨hrest.1, hrest.2.1, by omega⟩
    · split at h
      · contradiction
      rename_i more happend
      split at h
      · contradiction
      rename_i hmore
      obtain ⟨hencodable, hcount⟩ := isEncodable_appendArcs hread (Nat.not_lt.1 hmax) happend
      have hrest := ih (fun _ => hencodable) (Nat.not_lt.1 hmore) h
      simp only [List.length_cons]
      exact ⟨hrest.1, hrest.2.1, by omega⟩

/-- An identifier that is read can be written, in five octets for each that was read. -/
theorem ofContent_eq_ok {octets : Octets} {oid : Oid} (h : ofContent octets = .ok oid) :
    oid.Transmissible ∧ oid.content.length ≤ 5 * octets.length := by
  rw [ofContent] at h
  cases hread : readArcs [] none octets with
  | error defect =>
    rw [hread] at h
    contradiction
  | ok arcs =>
    rw [hread] at h
    cases h
    have hnone : ([] : List UInt32) ≠ [] → isEncodable ⟨([] : List UInt32).reverse⟩ = true :=
      fun hne => absurd rfl hne
    obtain ⟨hencodable, hshort, hcount⟩ := readArcs_eq_ok hnone (Nat.zero_le _) hread
    have hlength := length_content_le hencodable
    simp only [length, List.length_nil] at hlength hcount
    exact ⟨⟨hencodable, hshort⟩, by omega⟩

end Oid

/-! ### How long something becomes -/

namespace Ber

/-- The greatest number of octets that a datagram holds. -/
def maxDatagram : Nat := 65535

/-- What was read from `used` takes no more than eight times as many octets when it is
    written. -/
def Eightfold (used wire : Octets) : Prop :=
  used.length ≤ maxDatagram → wire.length ≤ 8 * used.length

theorem length_element_le {tag : Tag} {content : Octets} {n : Nat} (h : content.length ≤ n)
    (hn : n < 16777216) : (element tag content).length ≤ n + 5 := by
  have := Length.length_encode_le (k := 2) (Nat.lt_of_le_of_lt h hn)
  rw [length_element, headerSize]
  omega

theorem Announces.two_le_length {tag : Tag} {count : Nat} {head : Octets}
    (h : Announces tag count head) : 2 ≤ head.length := by
  obtain ⟨number, rfl, hnumber⟩ := h
  cases number with
  | nil => contradiction
  | cons first rest =>
    simp only [List.length_cons]
    omega

namespace Eightfold

variable {used wire other written content head : Octets} {tag wireTag : Tag}

theorem append (h : Eightfold used wire) (k : Eightfold other written) :
    Eightfold (used ++ other) (wire ++ written) := by
  intro hsize
  rw [List.length_append] at hsize
  have hfirst := h (by omega)
  have hsecond := k (by omega)
  simp only [List.length_append]
  omega

theorem of_le (h : Eightfold used wire) (hle : used.length ≤ other.length) :
    Eightfold other wire := by
  intro hsize
  have := h (by omega)
  omega

/-- What stands behind the last field of a content is not written again. -/
theorem of_consumes {r left : Reader} (huse : r.Consumes used left) (h : Eightfold used wire) :
    Eightfold r.rest wire := by
  apply h.of_le
  rw [huse.rest, List.length_append]
  exact Nat.le_add_right _ _

/-- A head takes at least two octets when it is read and at most five when it is written. -/
theorem element (hhead : Announces tag content.length head)
    (h : content.length ≤ maxDatagram → written.length ≤ 8 * content.length + 10) :
    Eightfold (head ++ content) (element wireTag written) := by
  intro hsize
  have hmax : maxDatagram = 65535 := rfl
  have hpos := hhead.two_le_length
  rw [List.length_append] at hsize ⊢
  have hwritten : (Ber.element wireTag written).length ≤ 8 * content.length + 10 + 5 :=
    length_element_le (h (by omega)) (by omega)
  omega

theorem constructed (hhead : Announces tag content.length head)
    (h : Eightfold content written) : Eightfold (head ++ content) (Ber.element wireTag written) :=
  element hhead fun hsize => Nat.le_add_right_of_le (h hsize)

theorem integer {value : Int32} (h : IsInteger value used) :
    Eightfold used (Ber.element Tag.integer (Octets.ofInt value.toInt)) := by
  obtain ⟨content, ⟨head, hhead, rfl⟩, _⟩ := h
  apply element hhead
  intro _
  have := length_ofInt_int32 value
  omega

theorem octetString (h : IsElement Tag.octetString content used) :
    Eightfold used (Ber.element Tag.octetString content) := by
  obtain ⟨head, hhead, rfl⟩ := h
  apply element hhead
  intro _
  omega

end Eightfold

/-! ### Contents of a known length -/

namespace Decoder

variable {α β : Type} {r left : Reader}

/-- A decoder that consumes `count` octets whenever it succeeds. -/
def Takes (decoder : Decoder α) (count : Nat) : Prop :=
  ∀ {r left : Reader} {a : α}, decoder r = .ok a left →
    ∃ content, content.length = count ∧ r.Consumes content left

theorem takes_octets (count : Nat) : Takes (octets count) count := by
  intro r left content h
  exact ⟨content, octets_eq_ok h⟩

theorem Takes.map {decoder : Decoder α} {count : Nat} (f : α → β) (h : Takes decoder count) :
    Takes (do return f (← decoder)) count := by
  intro r left b hmap
  rcases bind_eq_ok hmap with ⟨a, s, ha, hmap⟩
  cases hmap
  exact h ha

theorem takes_number (denoted? : Octets → Option α) (count : Nat) :
    Takes (number denoted? count) count := by
  intro r left value h
  rcases number_eq_ok h with ⟨content, -, hlength, hrest, -⟩
  exact ⟨content, hlength, hrest⟩

theorem takes_integerContent (count : Nat) : Takes (integerContent count) count :=
  takes_number Integer.toInt32? count

theorem takes_unsignedContent (maxCount count : Nat) :
    Takes (unsignedContent maxCount count) count :=
  takes_number (Integer.toWord? maxCount) count

theorem takes_unsigned32Content (count : Nat) : Takes (unsigned32Content count) count := by
  intro r left value h
  rw [unsigned32Content, bind_offset] at h
  rcases bind_eq_ok h with ⟨word, s, hword, h⟩
  split at h
  · cases h
    exact takes_unsignedContent 5 count hword
  · contradiction

theorem takes_unsigned64Content (count : Nat) : Takes (unsigned64Content count) count := by
  intro r left value h
  rw [unsigned64Content, bind_offset] at h
  split at h
  · contradiction
  · exact takes_unsignedContent 9 count h

theorem takes_ipAddressContent (start count : Nat) :
    Takes (ipAddressContent start count) count := by
  intro r left address h
  rw [ipAddressContent] at h
  split at h
  · rename_i hfour
    rcases bind_eq_ok h with ⟨content, s, hcontent, h⟩
    have htakes := takes_octets 4 hcontent
    match content, h with
    | [a, b, c, d], h =>
      cases h
      exact hfour ▸ htakes
    | [], h => contradiction
    | [_], h => contradiction
    | [_, _], h => contradiction
    | [_, _, _], h => contradiction
    | _ :: _ :: _ :: _ :: _ :: _, h => contradiction
  · contradiction

theorem oidContent_eq_ok {count : Nat} {oid : Oid} (h : oidContent count r = .ok oid left) :
    ∃ content, content.length = count ∧ r.Consumes content left ∧
      Oid.ofContent content = .ok oid := by
  rw [oidContent, bind_offset] at h
  rcases bind_eq_ok h with ⟨content, s, hcontent, h⟩
  obtain ⟨hlength, huse⟩ := octets_eq_ok hcontent
  cases hfound : Oid.ofContent content with
  | error defect =>
    simp only [hfound] at h
    contradiction
  | ok found =>
    simp only [hfound] at h
    cases h
    exact ⟨content, hlength, huse, hfound⟩

/-! ### Fields -/

theorem oid_eq_ok {oid : Oid} (h : Decoder.oid r = .ok oid left) :
    ∃ used, r.Consumes used left ∧ oid.Transmissible ∧
      Eightfold used (element Tag.objectIdentifier oid.content) := by
  rcases head_eq_ok h with ⟨count, head, s, hhead, hconsumes, h⟩
  rcases oidContent_eq_ok h with ⟨content, rfl, huse, hoid⟩
  obtain ⟨htransmissible, hlength⟩ := Oid.ofContent_eq_ok hoid
  refine ⟨head ++ content, hconsumes.trans huse, htransmissible, Eightfold.element hhead ?_⟩
  intro _
  omega

theorem timeTicks_eq_ok {value : UInt32} (h : timeTicks r = .ok value left) :
    ∃ used, r.Consumes used left ∧
      Eightfold used (element Tag.timeTicks (Octets.ofInt value.toNat)) := by
  rcases head_eq_ok h with ⟨count, head, s, hhead, hconsumes, h⟩
  rcases takes_unsigned32Content count h with ⟨content, rfl, huse⟩
  refine ⟨head ++ content, hconsumes.trans huse, Eightfold.element hhead ?_⟩
  intro _
  have := length_ofInt_uint32 value
  omega

theorem ipAddress_eq_ok {address : Vector UInt8 4} (h : ipAddress r = .ok address left) :
    ∃ used, r.Consumes used left ∧
      Eightfold used (element Tag.ipAddress address.toList) := by
  rw [ipAddress, bind_offset] at h
  rcases head_eq_ok h with ⟨count, head, s, hhead, hconsumes, h⟩
  rcases takes_ipAddressContent r.offset count h with ⟨content, rfl, huse⟩
  refine ⟨head ++ content, hconsumes.trans huse, Eightfold.element hhead ?_⟩
  intro _
  have hfour : address.toList.length = 4 := address.length_toList
  omega

end Decoder

end Ber

/-! ### Values -/

namespace Value

variable {r left : Reader} {start count : Nat}

/-- A value that can be written, in not much more than the octets of the content that it was
    read from. -/
structure Recovered (value : Value) (count : Nat) : Prop where
  transmissible : value.Transmissible
  length : value.content.length ≤ 8 * count + 10

theorem ofOpaqueContent?_eq_some {content : Octets} {value : Value}
    (h : ofOpaqueContent? content = some value) : value.Recovered content.length := by
  simp only [ofOpaqueContent?] at h
  split at h
  · split at h
    · cases h
      exact ⟨trivial, by simp [Value.content, floatMark, Octets.length_ofWord32]⟩
    · contradiction
  · rename_i hfloat
    split at h
    · split at h
      · rename_i hmark hbits
        cases h
        rw [List.length_drop] at hbits
        refine ⟨trivial, ?_⟩
        simp only [Value.content, doubleMark, List.length_append, Octets.length_ofWord64,
          List.length_cons, List.length_nil]
        omega
      · contradiction
    · rename_i hdouble
      cases h
      refine ⟨⟨?_, ?_⟩, by simp only [Value.content]; omega⟩
      · intro hmark
        exact hfloat (List.prefix_iff_eq_take.1 hmark).symm
      · intro hmark
        exact hdouble (List.prefix_iff_eq_take.1 hmark).symm

/-- A decoder that takes a whole content of this length, and yields a value that can be written. -/
def Recovers (decoder : Decoder Value) (count : Nat) : Prop :=
  ∀ r value left, decoder r = .ok value left →
    ∃ content, content.length = count ∧ r.Consumes content left ∧ value.Recovered count

namespace Recovers

theorem ite {condition : Prop} [Decidable condition] {yes no : Decoder Value}
    (hyes : Recovers yes count) (hno : Recovers no count) :
    Recovers (if condition then yes else no) count := by
  intro r value left h
  by_cases hcondition : condition
  · rw [if_pos hcondition] at h
    exact hyes r value left h
  · rw [if_neg hcondition] at h
    exact hno r value left h

theorem fail (defect : Defect) : Recovers (Decoder.fail start defect) count := by
  intro r value left h
  contradiction

/-- A value of a fixed size is not longer than the room that is left for it. -/
theorem map {α : Type} {decoder : Decoder α} {f : α → Value} (htakes : Takes decoder count)
    (hf : ∀ a, (f a).Transmissible ∧ (f a).content.length ≤ 10) :
    Recovers (do return f (← decoder)) count := by
  intro r value left h
  rcases bind_eq_ok h with ⟨a, s, ha, h⟩
  cases h
  rcases htakes ha with ⟨content, hlength, huse⟩
  obtain ⟨htransmissible, hshort⟩ := hf a
  exact ⟨content, hlength, huse, htransmissible, Nat.le_add_left_of_le hshort⟩

theorem unsigned32 (f : UInt32 → Value)
    (hf : ∀ v, (f v).Transmissible ∧ (f v).content = Octets.ofInt v.toNat) :
    Recovers (do return f (← Decoder.unsigned32Content count)) count := by
  apply map (takes_unsigned32Content count)
  intro v
  obtain ⟨htransmissible, hcontent⟩ := hf v
  rw [hcontent]
  exact ⟨htransmissible, Nat.le_trans (length_ofInt_uint32 v) (by decide)⟩

/-- The content of an exception marker is passed over. -/
theorem marker (value : Value) (htransmissible : value.Transmissible)
    (hcontent : value.content = []) :
    Recovers (do let _ ← Decoder.octets count; return value) count := by
  apply map (f := fun _ => value) (takes_octets count)
  intro _
  rw [hcontent]
  exact ⟨htransmissible, Nat.zero_le _⟩

theorem octetString : Recovers (do return .octetString (← Decoder.octets count)) count := by
  intro r value left h
  rcases bind_eq_ok h with ⟨content, s, hcontent, h⟩
  cases h
  obtain ⟨rfl, huse⟩ := octets_eq_ok hcontent
  exact ⟨content, rfl, huse, trivial, by simp only [Value.content]; omega⟩

theorem null :
    Recovers (if count = 0 then return .null else Decoder.fail start .invalidNull) count := by
  intro r value left h
  split at h
  · rename_i hempty
    cases h
    exact ⟨[], hempty.symm, ⟨rfl, rfl⟩, trivial, by simp [Value.content]⟩
  · contradiction

theorem objectIdentifier :
    Recovers (do return .objectIdentifier (← Decoder.oidContent count)) count := by
  intro r value left h
  rcases bind_eq_ok h with ⟨oid, s, hoid, h⟩
  cases h
  rcases oidContent_eq_ok hoid with ⟨content, rfl, huse, hoid⟩
  obtain ⟨htransmissible, hlength⟩ := Oid.ofContent_eq_ok hoid
  exact ⟨content, rfl, huse, htransmissible, by simp only [Value.content]; omega⟩

theorem opaqueData : Recovers (do
    match ofOpaqueContent? (← Decoder.octets count) with
    | some value => return value
    | none => Decoder.fail start .invalidOpaque) count := by
  intro r value left h
  rcases bind_eq_ok h with ⟨content, s, hcontent, hvalue⟩
  obtain ⟨rfl, huse⟩ := octets_eq_ok hcontent
  cases hfound : ofOpaqueContent? content with
  | none =>
    simp only [hfound] at hvalue
    contradiction
  | some found =>
    simp only [hfound] at hvalue
    cases hvalue
    exact ⟨content, rfl, huse, ofOpaqueContent?_eq_some hfound⟩

end Recovers

/-- Each type of value is read by a decoder that takes its whole content, and yields a value
    that can be written. -/
theorem recovers_decodeContent (start : Nat) (tag : Tag) (count : Nat) :
    Recovers (decodeContent start tag count) count := by
  have hinteger : Recovers (do return .integer (← Decoder.integerContent count)) count :=
    .map (takes_integerContent count) fun v =>
      ⟨trivial, Nat.le_trans (length_ofInt_int32 v) (by decide)⟩
  have haddress : Recovers (do return .ipAddress (← Decoder.ipAddressContent start count)) count :=
    .map (takes_ipAddressContent start count) fun v =>
      ⟨trivial, Nat.le_trans (Nat.le_of_eq v.length_toList) (by decide)⟩
  have hcounter64 : Recovers (do return .counter64 (← Decoder.unsigned64Content count)) count :=
    .map (takes_unsigned64Content count) fun v =>
      ⟨trivial, Nat.le_trans (length_ofInt_uint64 v) (by decide)⟩
  rw [decodeContent]
  apply Recovers.ite hinteger
  apply Recovers.ite .octetString
  apply Recovers.ite (.fail _)
  apply Recovers.ite .null
  apply Recovers.ite .objectIdentifier
  apply Recovers.ite haddress
  apply Recovers.ite (.unsigned32 .counter32 fun _ => ⟨trivial, rfl⟩)
  apply Recovers.ite (.unsigned32 .gauge32 fun _ => ⟨trivial, rfl⟩)
  apply Recovers.ite (.unsigned32 .timeTicks fun _ => ⟨trivial, rfl⟩)
  apply Recovers.ite .opaqueData
  apply Recovers.ite hcounter64
  apply Recovers.ite (.marker .noSuchObject trivial rfl)
  apply Recovers.ite (.marker .noSuchInstance trivial rfl)
  apply Recovers.ite (.marker .endOfMibView trivial rfl)
  exact .fail _

theorem decode_eq_ok {value : Value} (h : decode r = .ok value left) :
    ∃ used, r.Consumes used left ∧ value.Transmissible ∧
      Eightfold used (element value.tag value.content) := by
  rw [decode, bind_offset] at h
  rcases bind_eq_ok h with ⟨tag, s, htag, h⟩
  rcases bind_eq_ok h with ⟨count, t, hcount, h⟩
  rcases length_eq_ok hcount with ⟨number, hnumber, huse⟩
  rcases recovers_decodeContent _ _ _ _ _ _ h with ⟨content, rfl, hcontent, hvalue⟩
  have hhead : Announces tag content.length (tag :: number) := ⟨number, rfl, hnumber⟩
  refine ⟨(tag :: number) ++ content, ((tag_eq_ok htag).trans huse).trans hcontent,
    hvalue.transmissible, Eightfold.element hhead ?_⟩
  intro _
  exact hvalue.length

end Value

/-! ### Bindings -/

namespace Binding

variable {r left : Reader}

theorem decode_eq_ok {binding : Binding} (h : decode r = .ok binding left) :
    ∃ used, r.Consumes used left ∧ binding.Transmissible ∧ Eightfold used binding.wire := by
  rcases sequence_eq_ok h with ⟨head, content, unread, hhead, hconsumes, h⟩
  rcases bind_eq_ok h with ⟨oid, s, hoid, h⟩
  rcases bind_eq_ok h with ⟨value, t, hvalue, h⟩
  cases h
  rcases oid_eq_ok hoid with ⟨oidOctets, huse, hoid, hoidSize⟩
  rcases Value.decode_eq_ok hvalue with ⟨valueOctets, huse', hvalue, hvalueSize⟩
  refine ⟨head ++ content, hconsumes, ⟨hoid, hvalue⟩, Eightfold.constructed hhead ?_⟩
  exact Eightfold.of_consumes (huse.trans huse') (hoidSize.append hvalueSize)

/-- Each binding of a list can be written, by induction on the number of bindings that are
    still read. -/
theorem decodeUpTo_eq_ok {limit : Nat} : ∀ {r left : Reader} {bindings : List Binding},
    decodeUpTo limit r = .ok bindings left →
    ∃ used, r.Consumes used left ∧ (∀ b ∈ bindings, b.Transmissible) ∧
      Eightfold used (bindings.flatMap wire) := by
  induction limit with
  | zero =>
    intro r left bindings h
    cases h
    exact ⟨[], ⟨rfl, rfl⟩, by simp, fun _ => by simp⟩
  | succ limit ih =>
    intro r left bindings h
    rw [decodeUpTo, bind_get] at h
    split at h
    · cases h
      exact ⟨[], ⟨rfl, rfl⟩, by simp, fun _ => by simp⟩
    · rcases bind_eq_ok h with ⟨binding, s, hbinding, h⟩
      rcases bind_eq_ok h with ⟨rest, t, hrest, h⟩
      cases h
      rcases decode_eq_ok hbinding with ⟨used, huse, hbinding, hsize⟩
      rcases ih hrest with ⟨more, hmore, hrest, hrestSize⟩
      refine ⟨used ++ more, huse.trans hmore, ?_, ?_⟩
      · intro b hb
        rcases List.mem_cons.1 hb with rfl | hb
        · exact hbinding
        · exact hrest b hb
      · rw [List.flatMap_cons]
        exact hsize.append hrestSize

theorem decodeList_eq_ok {bindings : List Binding} (h : decodeList r = .ok bindings left) :
    ∃ used, r.Consumes used left ∧ (∀ b ∈ bindings, b.Transmissible) ∧
      Eightfold used (element Tag.sequence (bindings.flatMap wire)) := by
  rcases sequence_eq_ok h with ⟨head, content, unread, hhead, hconsumes, h⟩
  rw [decodeAll, bind_get] at h
  rcases decodeUpTo_eq_ok h with ⟨used, huse, hbindings, hsize⟩
  exact ⟨head ++ content, hconsumes, hbindings,
    Eightfold.constructed hhead (Eightfold.of_consumes huse hsize)⟩

end Binding

/-! ### PDUs -/

theorem TrapHeader.decode_eq_ok {r left : Reader} {header : TrapHeader}
    (h : decode r = .ok header left) :
    ∃ used, r.Consumes used left ∧ header.enterprise.Transmissible ∧
      Eightfold used header.wire := by
  rcases bind_eq_ok h with ⟨enterprise, s1, henterprise, h⟩
  rcases bind_eq_ok h with ⟨address, s2, haddress, h⟩
  rcases bind_eq_ok h with ⟨generic, s3, hgeneric, h⟩
  rcases bind_eq_ok h with ⟨specific, s4, hspecific, h⟩
  rcases bind_eq_ok h with ⟨stamp, s5, hstamp, h⟩
  cases h
  rcases oid_eq_ok henterprise with ⟨_, huse1, henterprise, hsize1⟩
  rcases ipAddress_eq_ok haddress with ⟨_, huse2, hsize2⟩
  rcases integer_eq_ok hgeneric with ⟨_, hgeneric, huse3⟩
  rcases integer_eq_ok hspecific with ⟨_, hspecific, huse4⟩
  rcases timeTicks_eq_ok hstamp with ⟨_, huse5, hsize5⟩
  exact ⟨_, huse1.trans (huse2.trans (huse3.trans (huse4.trans huse5))), henterprise,
    hsize1.append (hsize2.append ((Eightfold.integer hgeneric).append
      ((Eightfold.integer hspecific).append hsize5)))⟩

namespace Pdu

variable {r left : Reader} {pdu : Pdu} {trap? : Option TrapHeader}

theorem decodeTrapBody_eq_ok (h : decodeTrapBody r = .ok (pdu, trap?) left) :
    ∃ used, r.Consumes used left ∧ pdu.type = .trapV1 ∧ pdu.Transmissible trap? ∧
      Eightfold used (pdu.content trap?) := by
  rcases bind_eq_ok h with ⟨header, s1, hheader, h⟩
  rcases bind_eq_ok h with ⟨bindings, s2, hbindings, h⟩
  cases h
  rcases TrapHeader.decode_eq_ok hheader with ⟨_, huse1, henterprise, hsize1⟩
  rcases Binding.decodeList_eq_ok hbindings with ⟨_, huse2, hbindings, hsize2⟩
  refine ⟨_, huse1.trans huse2, rfl, ⟨hbindings, ?_, ?_⟩, hsize1.append hsize2⟩
  · intro _
    exact ⟨rfl, rfl, rfl, header, rfl, henterprise⟩
  · intro hplain
    exact absurd rfl hplain

theorem decodeBody_eq_ok {type : PduType} (htype : type ≠ .trapV1)
    (h : decodeBody type r = .ok (pdu, trap?) left) :
    ∃ used, r.Consumes used left ∧ pdu.type = type ∧ pdu.Transmissible trap? ∧
      Eightfold used (pdu.content trap?) := by
  rcases bind_eq_ok h with ⟨requestId, s1, hrequestId, h⟩
  rcases bind_eq_ok h with ⟨status, s2, hstatus, h⟩
  rcases bind_eq_ok h with ⟨index, s3, hindex, h⟩
  rcases bind_eq_ok h with ⟨bindings, s4, hbindings, h⟩
  cases h
  rcases integer_eq_ok hrequestId with ⟨_, hrequestId, huse1⟩
  rcases integer_eq_ok hstatus with ⟨_, hstatus, huse2⟩
  rcases integer_eq_ok hindex with ⟨_, hindex, huse3⟩
  rcases Binding.decodeList_eq_ok hbindings with ⟨_, huse4, hbindings, hsize⟩
  refine ⟨_, (huse1.trans (huse2.trans huse3)).trans huse4, rfl, ⟨hbindings, ?_, ?_⟩, ?_⟩
  · intro htrap
    exact absurd htrap htype
  · intro _
    rfl
  · rw [content, if_neg htype]
    exact ((Eightfold.integer hrequestId).append ((Eightfold.integer hstatus).append
      (Eightfold.integer hindex))).append hsize

/-- A PDU is read from the content of an element, as the type asks that the tag stands for. -/
theorem exists_body_of_decode (h : decode r = .ok (pdu, trap?) left) :
    ∃ type tag head content unread, Announces tag content.rest.length head ∧
      r.Consumes (head ++ content.rest) left ∧
      (if type = .trapV1 then decodeTrapBody else decodeBody type) content =
        .ok (pdu, trap?) unread := by
  rw [decode, bind_offset, bind_peek?] at h
  cases hpeek : r.peek? with
  | none =>
    simp only [hpeek] at h
    contradiction
  | some tag =>
  cases htype : PduType.ofTag? tag with
  | none =>
    simp only [hpeek, htype] at h
    contradiction
  | some type =>
  simp only [hpeek, htype] at h
  rcases bind_eq_ok h with ⟨inner, s, hinner, h⟩
  rcases constructed_eq_ok hinner with ⟨head, hhead, hconsumes, _⟩
  rcases within_eq_ok h with ⟨rfl, unread, h⟩
  exact ⟨type, tag, head, inner, unread, hhead, hconsumes, h⟩

/-- A PDU that is read, whatever its type, can be written with the header that came with it. -/
theorem decode_eq_ok (h : decode r = .ok (pdu, trap?) left) :
    ∃ used, r.Consumes used left ∧ pdu.Transmissible trap? ∧ Eightfold used (pdu.wire trap?) := by
  rcases exists_body_of_decode h with ⟨type, tag, head, content, unread, hhead, hconsumes, h⟩
  split at h
  · rcases decodeTrapBody_eq_ok h with ⟨used, huse, _, hpdu, hsize⟩
    exact ⟨head ++ content.rest, hconsumes, hpdu,
      Eightfold.constructed hhead (Eightfold.of_consumes huse hsize)⟩
  · rename_i hplain
    rcases decodeBody_eq_ok hplain h with ⟨used, huse, _, hpdu, hsize⟩
    exact ⟨head ++ content.rest, hconsumes, hpdu,
      Eightfold.constructed hhead (Eightfold.of_consumes huse hsize)⟩

end Pdu

end Snmp
