/-
  Snmp/Proofs/ForwardEncoding.lean
  ================================
  **What is written from back to front is the plain encoding from front to back.**

  Pushes onto a writer, nested to any depth, are data (`Push`).  Running them appends octets to
  a buffer in reverse, length octets in push order, and closes a constructed element after its
  body, from the difference of two sizes; the plain encoder (`Push.wire`) lays out a tag, length
  octets and a content from left to right.  When the buffer is turned around at the end, both
  agree, whatever the buffer held before: the octets of the pushes stand in front of it, those
  of the last push first, and the writer knows their number at every moment.

  Length octets are the shortest definite form of a length: any other form is longer
  (`Length.IsShortest`).
-/
import Snmp.Pdu.Encoding
import Snmp.Proofs.Elements

namespace Snmp.Ber

/-! ### Pushes -/

/-- A push onto a writer; a constructed element carries the pushes of its body, in the order in
    which they are made. -/
inductive Push where
  | raw (octets : Octets)
  | lengthOctets (length : Nat)
  | tagOctet (tag : Tag)
  | primitive (tag : Tag) (content : Octets)
  | integer (value : Int32)
  | unsigned32 (tag : Tag) (value : UInt32)
  | unsigned64 (value : UInt64)
  | octetString (content : Octets)
  | null
  | oid (name : Oid)
  | ipAddress (address : Vector UInt8 4)
  | constructed (tag : Tag) (body : List Push)
  | sequence (body : List Push)

namespace Push

mutual

def apply : Push → Writer → Writer
  | .raw octets => Writer.pushOctets octets
  | .lengthOctets length => Writer.pushLength length
  | .tagOctet tag => Writer.pushTag tag
  | .primitive tag content => Writer.pushPrimitive tag content
  | .integer value => Writer.pushInteger value
  | .unsigned32 tag value => Writer.pushUnsigned32 tag value
  | .unsigned64 value => Writer.pushUnsigned64 value
  | .octetString content => Writer.pushOctetString content
  | .null => Writer.pushNull
  | .oid name => Writer.pushOid name
  | .ipAddress address => Writer.pushIpAddress address
  | .constructed tag body => Writer.pushConstructed tag (applyAll body)
  | .sequence body => Writer.pushSequence (applyAll body)

def applyAll : List Push → Writer → Writer
  | [] => id
  | push :: rest => fun w => applyAll rest (push.apply w)

end

mutual

/-- What a push stands for, laid out from left to right. -/
def wire : Push → Octets
  | .raw octets => octets
  | .lengthOctets length => Length.encode length
  | .tagOctet tag => [tag]
  | .primitive tag content => element tag content
  | .integer value => element Tag.integer (Octets.ofInt value.toInt)
  | .unsigned32 tag value => element tag (Octets.ofInt value.toNat)
  | .unsigned64 value => element Tag.counter64 (Octets.ofInt value.toNat)
  | .octetString content => element Tag.octetString content
  | .null => element Tag.null []
  | .oid name => element Tag.objectIdentifier name.content
  | .ipAddress address => element Tag.ipAddress address.toList
  | .constructed tag body => element tag (wireAll body)
  | .sequence body => element Tag.sequence (wireAll body)

/-- The last push comes first. -/
def wireAll : List Push → Octets
  | [] => []
  | push :: rest => wireAll rest ++ push.wire

end

theorem wireAll_eq_flatMap (pushes : List Push) :
    wireAll pushes = pushes.reverse.flatMap wire := by
  induction pushes with
  | nil => rfl
  | cons push rest ih =>
    rw [wireAll, ih, List.reverse_cons, List.flatMap_append, List.flatMap_singleton]

mutual

theorem octets_apply (push : Push) (w : Writer) :
    (push.apply w).octets = push.wire ++ w.octets := by
  cases push with
  | raw octets => exact Writer.octets_pushOctets octets w
  | lengthOctets length => exact Writer.octets_pushLength length w
  | tagOctet tag => exact Writer.octets_pushTag tag w
  | integer value => exact Writer.octets_pushInteger value w
  | unsigned32 tag value => exact Writer.octets_pushUnsigned32 tag value w
  | unsigned64 value => exact Writer.octets_pushUnsigned64 value w
  | constructed tag body => exact Writer.octets_pushConstructed w (octets_applyAll body w)
  | sequence body => exact Writer.octets_pushConstructed w (octets_applyAll body w)
  | _ => exact Writer.octets_pushPrimitive _ _ w

theorem octets_applyAll (pushes : List Push) (w : Writer) :
    (applyAll pushes w).octets = wireAll pushes ++ w.octets := by
  cases pushes with
  | nil => rfl
  | cons push rest =>
    rw [applyAll, octets_applyAll rest, octets_apply push, wireAll, List.append_assoc]

end

/-- **Writing backwards is the plain encoding.**  Whatever the buffer holds, pushes leave it as it
    is and append their plain encodings in reverse, so that the finished message is these
    encodings, the last one first, in front of what there was; after each push the writer knows
    how many octets that is.  The content of a constructed element is what this says of its
    body, and the octets between a tag and a content are the shortest form of the content's
    length. -/
theorem applyAll_refines_wire (pushes : List Push) (w : Writer) :
    (applyAll pushes w).octets = pushes.reverse.flatMap wire ++ w.octets ∧
    (applyAll pushes w).buffer.toList =
      w.buffer.toList ++ (pushes.reverse.flatMap wire).reverse ∧
    (∀ count, (applyAll (pushes.take count) w).size =
      ((pushes.take count).reverse.flatMap wire ++ w.octets).length) ∧
    (∀ tag body, (constructed tag body).wire = element tag (body.reverse.flatMap wire)) ∧
    (∀ body, (sequence body).wire = element Tag.sequence (body.reverse.flatMap wire)) ∧
    ∀ tag content, content.length < UInt64.size → ∃ announced,
      element tag content = tag :: (announced ++ content) ∧
        Length.IsShortest content.length announced := by
  refine ⟨?_, ?_, fun count => ?_, fun tag body => ?_, fun body => ?_,
    fun tag content hlength => ?_⟩
  · rw [octets_applyAll, wireAll_eq_flatMap]
  · rw [Writer.toList_buffer, octets_applyAll, wireAll_eq_flatMap, List.reverse_append,
      Writer.toList_buffer]
  · rw [Writer.size_eq, octets_applyAll, wireAll_eq_flatMap]
  · rw [wire, wireAll_eq_flatMap]
  · rw [wire, wireAll_eq_flatMap]
  · have hbound : content.length < Nat.pow 256 126 := Nat.lt_trans hlength (by decide)
    exact ⟨Length.encode content.length, rfl, Length.isShortest_encode hbound⟩

theorem applyAll_refines_wire_nestedElement :
    let pushes : List Push :=
      [.constructed 0xA2 [.octetString [1, 2], .sequence [.null]], .tagOctet 0xFF]
    let content : Octets := [0x30, 2, 5, 0, 4, 2, 1, 2]
    let w : Writer := Writer.empty.pushOctets [7]
    (applyAll pushes w).octets = 0xFF :: 0xA2 :: 8 :: content ++ [7] ∧
    (applyAll pushes w).buffer.toList = [7, 2, 1, 2, 4, 0, 5, 2, 0x30, 8, 0xA2, 0xFF] ∧
    (applyAll (pushes.take 1) w).size = 11 ∧
    ∃ announced, element 0xA2 content = 0xA2 :: (announced ++ content) ∧
      Length.IsShortest 8 announced := by
  intro pushes content w
  obtain ⟨hoctets, hbuffer, hsizes, -, -, hannounced⟩ := applyAll_refines_wire pushes w
  have hheld : w.octets = [7] := by
    rw [Writer.octets_pushOctets, Writer.octets_empty, List.append_nil]
  have hsize := hsizes 1
  rw [hheld] at hoctets hsize
  exact ⟨hoctets, hbuffer, hsize, hannounced 0xA2 content (by decide)⟩

end Push

end Snmp.Ber

/-! ### The layers above -/

namespace Snmp

open Ber

def Value.asPush : Value → Push
  | .integer v => .integer v
  | .octetString content => .octetString content
  | .null => .null
  | .objectIdentifier oid => .oid oid
  | .ipAddress address => .ipAddress address
  | .counter32 v => .unsigned32 Tag.counter32 v
  | .gauge32 v => .unsigned32 Tag.gauge32 v
  | .timeTicks v => .unsigned32 Tag.timeTicks v
  | .opaqueData content => .primitive Tag.opaqueData content
  | .counter64 v => .unsigned64 v
  | .float bits => .primitive Tag.opaqueData (floatMark ++ Octets.ofWord32 bits)
  | .double bits => .primitive Tag.opaqueData (doubleMark ++ Octets.ofWord64 bits)
  | .noSuchObject => .primitive Tag.noSuchObject []
  | .noSuchInstance => .primitive Tag.noSuchInstance []
  | .endOfMibView => .primitive Tag.endOfMibView []

theorem Value.push_eq_apply (value : Value) : value.push = value.asPush.apply := by
  cases value <;> rfl

namespace Binding

def asPush (binding : Binding) : Push := .sequence [binding.value.asPush, .oid binding.oid]

/-- The last binding is pushed first. -/
def listAsPush (bindings : List Binding) : Push := .sequence (bindings.reverse.map asPush)

theorem push_eq_apply (binding : Binding) : binding.push = binding.asPush.apply := by
  funext w
  rw [push, Value.push_eq_apply]
  rfl

theorem pushAll_eq_applyAll (bindings : List Binding) (w : Writer) :
    pushAll bindings w = Push.applyAll (bindings.reverse.map asPush) w := by
  rw [pushAll, List.foldr_eq_foldl_reverse]
  induction bindings.reverse generalizing w with
  | nil => rfl
  | cons binding rest ih => rw [List.foldl_cons, ih, push_eq_apply, List.map_cons, Push.applyAll]

theorem pushList_eq_apply (bindings : List Binding) :
    pushList bindings = (listAsPush bindings).apply := by
  have hbody : pushAll bindings = Push.applyAll (bindings.reverse.map asPush) :=
    funext (pushAll_eq_applyAll bindings)
  funext w
  rw [pushList, hbody, listAsPush, Push.apply]

end Binding

def TrapHeader.pushes (header : TrapHeader) : List Push :=
  [.unsigned32 Tag.timeTicks header.timeStamp, .integer header.specificTrap,
    .integer header.genericTrap, .ipAddress header.agentAddress, .oid header.enterprise]

namespace Pdu

def numbersAsPushes (pdu : Pdu) : List Push :=
  [.integer pdu.errorIndex, .integer pdu.errorStatus, .integer pdu.requestId]

def asPush (pdu : Pdu) (trap? : Option TrapHeader) : Push :=
  .constructed pdu.type.tag (Binding.listAsPush pdu.bindings ::
    if pdu.type = .trapV1 then (trap?.getD .blank).pushes else pdu.numbersAsPushes)

/-- A PDU is written by pushes, so it is its plain encoding. -/
theorem push_eq_apply (pdu : Pdu) (trap? : Option TrapHeader) :
    pdu.push trap? = (pdu.asPush trap?).apply := by
  funext w
  rw [push, Binding.pushList_eq_apply, asPush]
  split <;> rfl

end Pdu

end Snmp
