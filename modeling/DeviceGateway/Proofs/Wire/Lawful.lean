import DeviceGateway.Wire.Record
import DeviceGateway.Proofs.Json.Reading

/-!
# Codecs that give back what they wrote

The codec of a type is lawful if the JSON of a value is written, nested to a known depth, and names
the value. Then the bytes of a value decode to it wherever the decoder has room for the depth.
-/

namespace DeviceGateway

open Json (Value Room)
open Wire (toJson ofJson?)

namespace Json

theorem namedMembers?_record (members : List (String × Value)) :
    namedMembers? (members.map fun (name, v) => (Text.utf8 (String.ofList (escape name.toList)), v))
      = some members := by
  induction members with
  | nil => rfl
  | cons m members ih =>
    rw [namedMembers?] at ih ⊢
    rw [List.map_cons, List.mapM_cons, ih]
    simp [textOf?_escape]

theorem fields?_record (names : List String) (members : List (String × Value)) :
    (record members).fields? names = namedFields? names members := by
  rw [record, Value.fields?, namedMembers?_record, Option.bind_some]

theorem written_record {d : Nat} {members : List (String × Value)}
    (h : ∀ m ∈ members, m.2.Written d) : (record members).Written (d + 1) := by
  refine .object (fun m hm => ?_) fun m hm => ?_
  · obtain ⟨⟨name, v⟩, -, rfl⟩ := List.mem_map.1 hm
    exact isText_escape name
  · obtain ⟨⟨name, v⟩, hmem, rfl⟩ := List.mem_map.1 hm
    exact h (name, v) hmem

end Json

namespace Wire

class Lawful (α : Type) [Wire α] (depth : outParam Nat) : Prop where
  ofJson?_toJson (a : α) : ofJson? (toJson a) = some a
  written (a : α) : (toJson a).Written depth

export Lawful (ofJson?_toJson written)

attribute [simp] ofJson?_toJson

variable {α : Type} [Wire α]

theorem decode?_encode {depth : Nat} [Lawful α depth] (h : Room (maxDepth α) depth) (a : α) :
    decode? (encode a) = some a := by
  rw [decode?, encode, Json.read_render (written a) h, Option.bind_some, ofJson?_toJson]

instance : Lawful String 0 where
  ofJson?_toJson s := Json.textOf?_escape s
  written s := Value.written_ofText s

theorem map_natural?_ofNat {β : Type} (f : Nat → β) {n limit : Nat} {b : β} (h : n ≤ limit)
    (hb : f n = b) : ((Value.ofNat n).natural? limit).map f = some b := by
  rw [Json.natural?_ofNat h, Option.map_some, hb]

instance : Lawful UInt8 0 where
  ofJson?_toJson b :=
    map_natural?_ofNat UInt8.ofNat (Nat.le_sub_one_of_lt b.toNat_lt) UInt8.ofNat_toNat
  written b := Value.written_ofNat (Nat.lt_trans b.toNat_lt (by decide))

instance : Lawful UInt16 0 where
  ofJson?_toJson n :=
    map_natural?_ofNat UInt16.ofNat (Nat.le_sub_one_of_lt n.toNat_lt) UInt16.ofNat_toNat
  written n := Value.written_ofNat (Nat.lt_trans n.toNat_lt (by decide))

instance : Lawful UInt64 0 where
  ofJson?_toJson n :=
    map_natural?_ofNat UInt64.ofNat (Nat.le_sub_one_of_lt n.toNat_lt) UInt64.ofNat_toNat
  written n := Value.written_ofNat n.toNat_lt

instance {depth : Nat} [Lawful α depth] : Lawful (List α) (depth + 1) where
  ofJson?_toJson items := by
    change (items.map toJson).mapM ofJson? = some items
    induction items with
    | nil => rfl
    | cons a items ih =>
      rw [List.map_cons, List.mapM_cons, ih, ofJson?_toJson]
      rfl
  written items := .array fun v hv => by
    obtain ⟨a, -, rfl⟩ := List.mem_map.1 hv
    exact written a

instance : Lawful ClientId 0 where
  ofJson?_toJson id := by
    change (ofJson? (toJson id.text)).map ClientId.mk = some id
    rw [ofJson?_toJson]
    rfl
  written id := written id.text

instance : Lawful ChannelId 0 where
  ofJson?_toJson id := by
    change (ofJson? (toJson id.text)).bind ChannelId.ofString? = some id
    rw [ofJson?_toJson]
    exact id.ofString?_text
  written id := written id.text

omit [Wire α] in
theorem namedCase?_ofText {name : α → String} {cases : List α} {a : α}
    (h : cases.find? (name · == name a) = some a) :
    namedCase? name cases (Value.ofText (name a)) = some a := by
  rw [namedCase?, Value.ofText, Value.caseName?, Json.textOf?_escape]
  exact h

instance : Lawful Protocol 0 where
  ofJson?_toJson p := namedCase?_ofText (by cases p <;> decide)
  written p := written p.name

instance : Lawful Operation 0 where
  ofJson?_toJson o := namedCase?_ofText (by cases o <;> decide)
  written o := written o.name

instance : Lawful Channel 1 where
  ofJson?_toJson c := by
    unfold ofJson? instWireChannel
    simp [Json.fields?_record, Json.namedFields?, Json.member?, Json.orElse?]
  written c := Json.written_record (by
    simp only [List.forall_mem_cons]
    exact ⟨written c.id, written c.subtopic, by simp⟩)

instance : Lawful Message 2 where
  ofJson?_toJson c := by
    unfold ofJson? instWireMessage
    simp [Json.fields?_record, Json.namedFields?, Json.member?, Json.orElse?]
  written m := Json.written_record (by
    simp only [List.forall_mem_cons]
    exact ⟨(written m.channel).mono (by decide), (written m.subtopic).mono (by decide),
      (written m.publisher).mono (by decide), (written m.protocol).mono (by decide),
      written m.payload, (written m.created).mono (by decide), by simp⟩)

theorem optional?_none : Json.optional? (ofJson? : Value → Option α) none = some none := rfl

theorem optional?_toJson {depth : Nat} [Lawful α depth] {a : α} (h : toJson a ≠ .null) :
    Json.optional? ofJson? (some (toJson a)) = some (some a) := by
  rw [Json.optional?, ofJson?_toJson, Option.map_some]
  simpa using h

theorem written_optionalMember {d depth : Nat} [Lawful α depth] (hle : depth ≤ d) (name : String)
    (o : Option α) : ∀ m ∈ Json.optionalMember name o, m.2.Written d := by
  cases o with
  | none => simp [Json.optionalMember]
  | some a => simpa [Json.optionalMember] using (written a).mono hle

instance : Lawful Event 1 where
  ofJson?_toJson e := by
    have hchannel (id : ChannelId) : toJson id ≠ .null := Value.noConfusion
    have hsubtopic (s : String) : toJson s ≠ .null := Value.noConfusion
    obtain ⟨operation, client, channel, subtopic, protocol, instanceName, timestamp⟩ := e
    unfold ofJson? instWireEvent
    cases channel <;> cases subtopic <;>
      simp [Json.fields?_record, Json.namedFields?, Json.member?, Json.optionalMember,
        optional?_none, optional?_toJson, hchannel, hsubtopic]
  written e := Json.written_record (by
    simp only [List.forall_mem_append, List.forall_mem_cons]
    exact ⟨⟨⟨⟨written e.operation, written e.client, by simp⟩,
      written_optionalMember (Nat.le_refl _) _ e.channel⟩,
      written_optionalMember (Nat.le_refl _) _ e.subtopic⟩,
      written e.protocol, written e.instanceName, written e.timestamp, by simp⟩)

end Wire

end DeviceGateway
