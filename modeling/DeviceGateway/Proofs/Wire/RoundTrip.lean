import DeviceGateway.Wire.Packet
import DeviceGateway.Proofs.Wire.Lawful
import Mathlib.Logic.Function.Basic

/-!
# The bytes of a value decode to it

Packets, messages, events and the names in them all have lawful codecs, so each of them is decoded
from its own bytes, and different values have different bytes. A packet is the one type that bounds
how deep its JSON nests, far above what packets need.
-/

namespace DeviceGateway

open Json (Value Room)
open Wire (toJson ofJson? encode decode? maxDepth Lawful written ofJson?_toJson)

namespace Packet

theorem written_members (p : Packet) : ∀ m ∈ p.members, m.2.Written 1 := by
  have htext (s : String) : (toJson s).Written 1 := (written s).mono (by decide)
  have hcode (n : UInt16) : (toJson n).Written 1 := (written n).mono (by decide)
  have htexts (topics : List String) : (toJson topics).Written 1 := written topics
  have hbytes (payload : Bytes) : (toJson payload).Written 1 := written payload
  cases p <;> simp [members, htext, hcode, htexts, hbytes]

theorem ne_type_of_mem_members (p : Packet) : ∀ m ∈ p.members, m.1 ≠ "type" := by
  cases p <;> simp [members]

theorem split?_record (p : Packet) :
    split? (Json.record (("type", toJson p.kind) :: p.members)) =
      some (p.kind, .named p.members) := by
  have hothers : p.members.filter (·.1 == "type") = [] :=
    List.filter_eq_nil_iff.2 fun m hm => by simpa using p.ne_type_of_mem_members m hm
  have hkept : p.members.filter (·.1 != "type") = p.members :=
    List.filter_eq_self.2 fun m hm => by simpa using p.ne_type_of_mem_members m hm
  have htype : Json.member? (("type", toJson p.kind) :: p.members) "type" =
      some (some (toJson p.kind)) := by
    simp [Json.member?, hothers]
  have hkind : (toJson p.kind).text? = some p.kind := ofJson?_toJson p.kind
  rw [Json.record, split?, Json.namedMembers?_record]
  simp [htype, hkind, hkept]

theorem Body.one?_named {α : Type} [Wire α] {depth : Nat} [Lawful α depth] (name : String)
    (make : α → Packet) (a : α) :
    (Body.named [(name, toJson a)]).one? name make = some (make a) := by
  have hfields : (Body.named [(name, toJson a)]).fields? [name] = some [some (toJson a)] := by
    simp [Body.fields?, Json.namedFields?, Json.member?]
  rw [Body.one?, hfields]
  simp

theorem Body.two?_named {α β : Type} [Wire α] [Wire β] {depth depth' : Nat} [Lawful α depth]
    [Lawful β depth'] (first second : String) (hne : first ≠ second) (make : α → β → Packet)
    (a : α) (b : β) :
    (Body.named [(first, toJson a), (second, toJson b)]).two? first second make =
      some (make a b) := by
  have hfields : (Body.named [(first, toJson a), (second, toJson b)]).fields? [first, second] =
      some [some (toJson a), some (toJson b)] := by
    simp [Body.fields?, Json.namedFields?, Json.member?, hne, hne.symm]
  rw [Body.two?, hfields]
  simp

theorem ofBody?_members (p : Packet) : ofBody? p.kind (.named p.members) = some p := by
  cases p with
  | connect secret => exact Body.one?_named "secret" connect secret
  | publish topic payload =>
    exact Body.two?_named "topic" "payload" (by decide) publish topic payload
  | subscribe topics => exact Body.one?_named "topics" subscribe topics
  | unsubscribe topics => exact Body.one?_named "topics" unsubscribe topics
  | ping => rfl
  | disconnect => rfl
  | connAck => rfl
  | subAck topics => exact Body.one?_named "topics" subAck topics
  | unsubAck topics => exact Body.one?_named "topics" unsubAck topics
  | pong => rfl
  | deliver topic payload =>
    exact Body.two?_named "topic" "payload" (by decide) deliver topic payload
  | error code message => exact Body.two?_named "code" "message" (by decide) error code message

end Packet

theorem Packet.written_toJson (p : Packet) : (toJson p).Written 2 := Json.written_record (by
  simp only [List.forall_mem_cons]
  exact ⟨(written p.kind).mono (by decide), p.written_members⟩)

theorem Packet.ofJson?_toJson (p : Packet) : ofJson? (toJson p) = some p := by
  have hsound : (toJson p).isSound = true := p.written_toJson.isSound
  change (if (toJson p).isSound = true then _ else _) = _
  rw [if_pos hsound]
  exact (congrArg (Option.bind · _) p.split?_record).trans p.ofBody?_members

instance : Lawful Packet 2 where
  ofJson?_toJson := Packet.ofJson?_toJson
  written := Packet.written_toJson

structure RoundTrips (α : Type) [Wire α] : Prop where
  decode_encode (a : α) : decode? (encode a) = some a
  injective : Function.Injective (encode : α → Bytes)
  decode_again {bytes : Bytes} {a : α} (h : decode? bytes = some a) : decode? (encode a) = some a

theorem roundTrips {α : Type} [Wire α] {depth : Nat} [Lawful α depth]
    (h : Room (maxDepth α) depth) : RoundTrips α where
  decode_encode := Wire.decode?_encode h
  injective a b hab := by
    have := Wire.decode?_encode h a
    rw [hab, Wire.decode?_encode h b] at this
    exact (Option.some.inj this).symm
  decode_again _ := Wire.decode?_encode h _

theorem room_none (depth : Nat) : Room none depth := fun _ h => by cases h

theorem room_packet : Room (maxDepth Packet) 2 := by
  intro n h
  obtain rfl : 127 = n := Option.some.inj h
  decide

theorem Packet.ofFrame?_frame (p : Packet) : Packet.ofFrame? p.frame = some p :=
  Wire.decode?_encode room_packet p

/-- An event without a channel or a subtopic is not taken for one that has it, even an empty one. -/
theorem codec_round_trips :
    RoundTrips Packet ∧ RoundTrips Message ∧ RoundTrips Event ∧ RoundTrips Channel ∧
    RoundTrips ChannelId ∧ RoundTrips ClientId ∧ RoundTrips Protocol ∧ RoundTrips Operation ∧
    (∀ (e : Event) (s : String), encode { e with subtopic := none } ≠
      encode { e with subtopic := some s }) ∧
    (∀ (e : Event) (id : ChannelId), encode { e with channel := none } ≠
      encode { e with channel := some id }) := by
  have hevent : RoundTrips Event := roundTrips (room_none 1)
  refine ⟨roundTrips room_packet, roundTrips (room_none 2), hevent, roundTrips (room_none 1),
    roundTrips (room_none 0), roundTrips (room_none 0), roundTrips (room_none 0),
    roundTrips (room_none 0), fun e s h => ?_, fun e id h => ?_⟩
  · cases congrArg Event.subtopic (hevent.injective h)
  · cases congrArg Event.channel (hevent.injective h)

end DeviceGateway
