import DeviceGateway.Error
import DeviceGateway.Proofs.Json.Shortest
import DeviceGateway.Proofs.Topic.Grammar
import DeviceGateway.Proofs.Wire.RoundTrip
import Mathlib.Algebra.BigOperators.Group.List.Basic
import Mathlib.Data.List.Flatten

/-!
# How much longer a delivery is than the publish

A publish that is taken goes out again as a delivery under the topic of its channel. That topic is
none of the longer ones for the channel, and the payload is written as briefly as it can be, so a
delivery is no longer than the publish if that came as an object. The array form of a publish leaves
out the names of the fields, 25 bytes that the delivery has.
-/

namespace DeviceGateway

open Json (Value cost OpensWith)
open Wire (toJson ofJson? Shortest written)

namespace Topic

theorem path_sublist (s : List Char) : (path s).Sublist s := by
  have htake := List.takeWhile_sublist (l := s) (· != '?')
  simp only [path]
  split
  · rename_i rest heq
    exact (List.sublist_cons_self '/' rest).trans (heq ▸ htake)
  · exact htake

theorem cost_pieces (raw : List Char) :
    cost ((Text.pieces (fun c => c == '/' || c == '.') raw).flatMap ('/' :: ·)) =
      cost ('/' :: raw) := by
  induction raw with
  | nil => rfl
  | cons x raw ih =>
    cases hx : x == '/' || x == '.' with
    | true =>
      have hcost : Json.charCost x = Json.charCost '/' := by
        rcases Bool.or_eq_true_iff.1 hx with h | h
        · rw [beq_iff_eq.1 h]
        · rw [beq_iff_eq.1 h]
          rfl
      rw [Text.pieces_cons_of_sep hx, List.flatMap_cons, Json.cost_append, ih]
      simp [hcost]
    | false =>
      obtain ⟨p, ps, hp⟩ := List.exists_cons_of_ne_nil
        (Text.pieces_ne_nil (fun c => c == '/' || c == '.') raw)
      rw [hp] at ih
      rw [Text.pieces_cons_of_not_sep hx hp]
      simp only [List.flatMap_cons, List.cons_append, Json.cost_cons, Json.cost_append] at ih ⊢
      omega

theorem cost_levels_le (raw : List Char) :
    cost ((levels raw).flatMap ('/' :: ·)) ≤ cost ('/' :: raw) := by
  rw [← cost_pieces]
  exact Json.cost_le_of_sublist (List.filter_sublist.flatMap _)

theorem cost_edgeTopic_le {topic : String} {c : Channel} (h : parse topic = .ok c) :
    cost (edgeTopic c.id c.subtopic).toList ≤ cost topic.toList := by
  obtain ⟨raw, ts, hframe, hts, hsub⟩ := read_eq_ok_iff.1 h
  obtain ⟨rfl, -⟩ := tokens_plain hts
  have hlevels := fun l => isLevel_of_mem_levels (l := l) (frame_raw_clean hframe)
  obtain ⟨tail, hpath, htail⟩ := frame_eq_ok_iff.1 hframe
  have hrest : cost ((levels raw).flatMap ('/' :: ·)) ≤ cost tail := by
    rcases htail with ⟨rfl, rfl⟩ | rfl
    · exact Nat.le_refl 0
    · exact cost_levels_le raw
  have hbase : path topic.toList = (base c.id).toList ++ tail := by
    rw [hpath, base_toList]
    simp
  calc cost (edgeTopic c.id c.subtopic).toList
      = cost (base c.id).toList + cost ((levels raw).flatMap ('/' :: ·)) := by
        rw [hsub, edgeTopic_toList c.id hlevels, join_spelling, Json.cost_append]
    _ ≤ cost (base c.id).toList + cost tail := Nat.add_le_add_left hrest _
    _ = cost (path topic.toList) := by rw [hbase, Json.cost_append]
    _ ≤ cost topic.toList := Json.cost_le_of_sublist (path_sublist _)

end Topic

namespace Json

def memberCost (m : String × Value) : Nat := cost m.1.toList + m.2.render.length + 4

def membersCost (members : List (String × Value)) : Nat := (members.map memberCost).sum

theorem length_membersTail (members : List (Bytes × Value)) :
    (membersTail members).length = (members.map fun m => (memberText m).length + 1).sum + 1 := by
  simp [membersTail, List.length_flatMap]

theorem length_render_object {members : List (Bytes × Value)} (h : members ≠ []) :
    (Value.object members).render.length =
      (members.map fun m => (memberText m).length + 1).sum + 1 := by
  obtain ⟨m, ms, rfl⟩ := List.exists_cons_of_ne_nil h
  rw [render_object_cons, List.length_cons, List.length_append, length_membersTail, List.map_cons,
    List.sum_cons]
  omega

theorem render_array_head (items : List Value) :
    ∃ rest, (Value.array items).render = 0x5B :: rest := by
  cases items with
  | nil => exact ⟨_, rfl⟩
  | cons v items => exact ⟨_, render_array_cons v items⟩

theorem render_object_head (members : List (Bytes × Value)) :
    ∃ rest, (Value.object members).render = 0x7B :: rest := by
  cases members with
  | nil => exact ⟨_, rfl⟩
  | cons m members => exact ⟨_, render_object_cons m members⟩

theorem length_render_array {items : List Value} (h : items ≠ []) :
    (Value.array items).render.length = (items.map fun v => v.render.length + 1).sum + 1 := by
  obtain ⟨v, rest, rfl⟩ := List.exists_cons_of_ne_nil h
  rw [render_array_cons, List.length_cons, List.length_append, length_itemsTail, List.map_cons,
    List.sum_cons]
  omega

theorem length_memberText (m : Bytes × Value) :
    (memberText m).length = m.1.length + m.2.render.length + 3 := by
  simp [memberText]
  omega

theorem length_render_record {members : List (String × Value)} (h : members ≠ []) :
    (record members).render.length = membersCost members + 1 := by
  rw [record, length_render_object (by simpa using h), List.map_map, membersCost]
  congr 3
  funext m
  simp [length_memberText, length_utf8_escape, memberCost]

variable {raw : List (Bytes × Value)} {members : List (String × Value)}

theorem of_namedMembers? (h : namedMembers? raw = some members) (hraw : FormedMembers raw) :
    membersCost members ≤ (raw.map fun m => (memberText m).length + 1).sum ∧
      ∀ m ∈ members, m.2.Formed := by
  induction raw generalizing members with
  | nil =>
    cases h
    exact ⟨Nat.le_refl 0, fun m hm => absurd hm List.not_mem_nil⟩
  | cons m raw ih =>
    rw [namedMembers?, List.mapM_cons] at h
    obtain ⟨named, hnamed, h⟩ := Option.bind_eq_some_iff.1 h
    obtain ⟨rest, hrest, h⟩ := Option.bind_eq_some_iff.1 h
    cases h
    obtain ⟨name, hname, rfl⟩ := Option.map_eq_some_iff.1 hnamed
    obtain ⟨hkey, hkeys⟩ := List.forall_mem_cons.1 hraw.keys
    obtain ⟨hv, hvs⟩ := List.forall_mem_cons.1 hraw.values
    obtain ⟨hle, hformed⟩ := ih hrest ⟨hkeys, hvs⟩
    refine ⟨?_, List.forall_mem_cons.2 ⟨hv, hformed⟩⟩
    have hcost := cost_le_of_textOf? hname hkey
    simp only [membersCost, List.map_cons, List.sum_cons, length_memberText, memberCost] at hle ⊢
    omega

theorem membersCost_eq_add (members : List (String × Value)) (name : String) :
    membersCost members = membersCost (members.filter (·.1 == name)) +
      membersCost (members.filter (·.1 != name)) := by
  have hsum := List.sum_map_filter_add_sum_map_filter_not (·.1 = name) memberCost members
  simpa [membersCost, bne, beq_eq_decide] using hsum.symm

theorem of_member? {name : String} {v : Value} (h : member? members name = some (some v)) :
    (name, v) ∈ members ∧ membersCost members =
      memberCost (name, v) + membersCost (members.filter (·.1 != name)) := by
  simp only [member?] at h
  split at h
  · cases h
  · rename_i key w heq
    cases h
    have hkept : (key, v) ∈ members.filter (·.1 == name) := heq ▸ List.mem_singleton_self _
    obtain ⟨hmem, hkey⟩ := List.mem_filter.1 hkept
    obtain rfl : key = name := beq_iff_eq.1 hkey
    refine ⟨hmem, ?_⟩
    rw [membersCost_eq_add members key, heq]
    simp [membersCost]
  · cases h

theorem member?_filter_ne {name other : String} (h : other ≠ name) :
    member? (members.filter (·.1 != name)) other = member? members other := by
  have hfilter : (members.filter (·.1 != name)).filter (·.1 == other) =
      members.filter (·.1 == other) := by
    rw [List.filter_filter]
    refine List.filter_congr fun m _ => ?_
    by_cases hm : m.1 = other
    · simp [hm, h]
    · simp [hm]
  rw [member?, hfilter]
  rfl

end Json

namespace Packet

section
variable {α β : Type} [Wire α] [Wire β] {b : Body} {p q : Packet}

theorem eq_of_none? (h : b.none? q = some p) : p = q := by
  cases b with
  | named members =>
    cases h
    rfl
  | listed items =>
    simp only [Body.none?] at h
    split at h <;> cases h
    rfl

theorem of_one? {name : String} {make : α → Packet} (h : b.one? name make = some p) :
    ∃ a, p = make a := by
  simp only [Body.one?] at h
  split at h
  · obtain ⟨a, -, rfl⟩ := Option.map_eq_some_iff.1 h
    exact ⟨a, rfl⟩
  · cases h

theorem of_two? {first second : String} {make : α → β → Packet}
    (h : b.two? first second make = some p) :
    ∃ v w a c, b.fields? [first, second] = some [some v, some w] ∧ ofJson? v = some a ∧
      ofJson? w = some c ∧ p = make a c := by
  simp only [Body.two?] at h
  split at h
  · rename_i v w heq
    obtain ⟨a, ha, h⟩ := Option.bind_eq_some_iff.1 h
    obtain ⟨c, hc, h⟩ := Option.bind_eq_some_iff.1 h
    cases h
    exact ⟨v, w, a, c, heq, ha, hc, rfl⟩
  · cases h

end

theorem of_ofBody?_publish {kind : String} {b : Body} {topic : String} {payload : Bytes}
    (h : ofBody? kind b = some (.publish topic payload)) :
    kind = "Publish" ∧ ∃ v w, b.fields? ["topic", "payload"] = some [some v, some w] ∧
      ofJson? v = some topic ∧ ofJson? w = some payload := by
  simp only [ofBody?] at h
  split at h
  case h_2 =>
    obtain ⟨v, w, a, c, hfields, ha, hc, heq⟩ := of_two? h
    cases heq
    exact ⟨rfl, v, w, hfields, ha, hc⟩
  case h_5 | h_6 | h_7 | h_10 => cases eq_of_none? h
  case h_13 => cases h
  case h_11 | h_12 =>
    obtain ⟨v, w, a, c, -, -, -, heq⟩ := of_two? h
    cases heq
  all_goals
    obtain ⟨a, heq⟩ := of_one? h
    cases heq

theorem length_frame_deliver (topic : String) (payload : Bytes) :
    (Packet.deliver topic payload).frame.length =
      (toJson topic).render.length + (toJson payload).render.length + 38 := by
  have hkind : (toJson "Deliver").render.length = 9 := by decide
  have hcosts : cost "type".toList = 4 ∧ cost "topic".toList = 5 ∧ cost "payload".toList = 7 := by
    decide
  change (Json.record _).render.length = _
  rw [Json.length_render_record (List.cons_ne_nil _ _)]
  simp only [members, kind, Json.membersCost, Json.memberCost, List.map_cons, List.map_nil,
    List.sum_cons, List.sum_nil, hkind, hcosts]
  omega

variable {raw : List (Bytes × Value)} {items : List Value} {topic : String} {payload : Bytes}
  {body : Body} {v w : Value}

theorem of_namedFields? {members : List (String × Value)} {first second : String}
    (h : Json.namedFields? [first, second] members = some [some v, some w]) :
    Json.member? members first = some (some v) ∧ Json.member? members second = some (some w) := by
  simp only [Json.namedFields?, List.mapM_cons, List.mapM_nil] at h
  obtain ⟨slot, hfirst, h⟩ := Option.bind_eq_some_iff.1 h
  obtain ⟨rest, hrest, h⟩ := Option.bind_eq_some_iff.1 h
  obtain ⟨slot', hsecond, hrest⟩ := Option.bind_eq_some_iff.1 hrest
  cases hrest
  cases h
  exact ⟨hfirst, hsecond⟩

theorem eq_of_listedFields? {first second : String}
    (h : Json.listedFields? [first, second] items = some [some v, some w]) : items = [v, w] := by
  simp only [Json.listedFields?] at h
  split at h
  · match items with
    | [] => cases h
    | [_] => cases h
    | [_, _] =>
      cases h
      rfl
    | _ :: _ :: _ :: _ =>
      rename_i hlong
      simp at hlong
  · cases h

theorem length_publish_le {kind : Value} (h : kind.text? = some "Publish") (hkind : kind.Formed) :
    9 ≤ kind.render.length :=
  Shortest.length_le (α := String) (a := "Publish") h hkind

theorem length_ge_of_object (hsplit : split? (.object raw) = some ("Publish", body))
    (hfields : body.fields? ["topic", "payload"] = some [some v, some w])
    (hraw : Json.FormedMembers raw) :
    v.Formed ∧ w.Formed ∧
      v.render.length + w.render.length + 38 ≤ (Value.object raw).render.length := by
  obtain ⟨members, hmembers, h⟩ := Option.bind_eq_some_iff.1 hsplit
  obtain ⟨slot, htype, h⟩ := Option.bind_eq_some_iff.1 h
  obtain _ | kind := slot
  · cases h
  obtain ⟨name, hname, h⟩ := Option.bind_eq_some_iff.1 h
  cases h
  obtain ⟨htopic, hpayload⟩ := of_namedFields? hfields
  obtain ⟨hle, hformed⟩ := Json.of_namedMembers? hmembers hraw
  obtain ⟨hkind, hsum⟩ := Json.of_member? htype
  obtain ⟨hv, hsum'⟩ := Json.of_member? htopic
  obtain ⟨hw, hsum''⟩ := Json.of_member?
    ((Json.member?_filter_ne (show "payload" ≠ "topic" by decide)).trans hpayload)
  have hnine := length_publish_le hname (hformed _ hkind)
  have hraw' : raw ≠ [] := by
    rintro rfl
    cases hmembers
    cases hkind
  refine ⟨hformed _ (List.mem_filter.1 hv).1,
    hformed _ (List.mem_filter.1 (List.mem_filter.1 hw).1).1, ?_⟩
  rw [Json.length_render_object hraw']
  have hcosts : cost "type".toList = 4 ∧ cost "topic".toList = 5 ∧ cost "payload".toList = 7 := by
    decide
  simp only [Json.memberCost, hcosts] at hsum hsum' hsum''
  omega

theorem length_ge_of_array (hsplit : split? (.array items) = some ("Publish", body))
    (hfields : body.fields? ["topic", "payload"] = some [some v, some w])
    (hitems : ∀ v ∈ items, v.Formed) :
    v.Formed ∧ w.Formed ∧
      v.render.length + w.render.length + 13 ≤ (Value.array items).render.length := by
  cases items with
  | nil => cases hsplit
  | cons kind items =>
    obtain ⟨name, hname, heq⟩ := Option.map_eq_some_iff.1 hsplit
    cases heq
    obtain rfl := eq_of_listedFields? hfields
    obtain ⟨hkind, hv, hw, -⟩ := by simpa only [List.forall_mem_cons] using hitems
    have hnine := length_publish_le hname hkind
    refine ⟨hv, hw, ?_⟩
    rw [Json.length_render_array (List.cons_ne_nil _ _)]
    simp only [List.map_cons, List.map_nil, List.sum_cons, List.sum_nil]
    omega

theorem length_frame_deliver_le (hv : v.Formed) (hw : w.Formed)
    (htopic : ofJson? v = some topic) (hpayload : ofJson? w = some payload) {c : Channel}
    (hc : Topic.parse topic = .ok c) :
    (deliver (Topic.edgeTopic c.id c.subtopic) payload).frame.length ≤
      v.render.length + w.render.length + 38 := by
  have hedge : (toJson (Topic.edgeTopic c.id c.subtopic)).render.length ≤
      (toJson topic).render.length := by
    have hcost := Topic.cost_edgeTopic_le hc
    simpa [toJson] using hcost
  have hgiven := Shortest.length_le htopic hv
  have hbytes := Shortest.length_le hpayload hw
  rw [length_frame_deliver]
  omega

theorem ofFrame?_eq_some {frame : Bytes} {p : Packet} (h : ofFrame? frame = some p) :
    ∃ v kind body, v.Formed ∧ Json.Squeezes v.render frame ∧ split? v = some (kind, body) ∧
      ofBody? kind body = some p := by
  obtain ⟨v, hread, h⟩ := Option.bind_eq_some_iff.1 h
  obtain ⟨hformed, hsqueezes⟩ := Json.squeezes_of_read hread
  change (if v.isSound then _ else none) = some p at h
  split at h
  · obtain ⟨⟨kind, body⟩, hsplit, hbody⟩ := Option.bind_eq_some_iff.1 h
    exact ⟨v, kind, body, hformed, hsqueezes, hsplit, hbody⟩
  · cases h

/-- A delivery outgrows its publish only if that came as an array, and by at most 25 bytes. -/
theorem delivery_length {frame : Bytes} {c : Channel}
    (hframe : ofFrame? frame = some (.publish topic payload)) (htopic : Topic.parse topic = .ok c) :
    let delivery := (deliver (Topic.edgeTopic c.id c.subtopic) payload).frame
    (OpensWith 0x7B frame ∧ delivery.length ≤ frame.length ∨
      OpensWith 0x5B frame ∧ delivery.length ≤ frame.length + 25) ∧
    (frame.length ≤ maxFrameLength → maxFrameLength < delivery.length →
      OpensWith 0x5B frame ∧ maxFrameLength < frame.length + 25) := by
  intro delivery
  obtain ⟨value, kind, body, hformed, hsqueezes, hsplit, hbody⟩ := ofFrame?_eq_some hframe
  obtain ⟨rfl, v, w, hfields, hv, hw⟩ := of_ofBody?_publish hbody
  have hlength := hsqueezes.length_le
  have hgrowth : OpensWith 0x7B frame ∧ delivery.length ≤ frame.length ∨
      OpensWith 0x5B frame ∧ delivery.length ≤ frame.length + 25 := by
    cases hformed with
    | @object raw hkeys hvalues =>
      obtain ⟨hv', hw', hge⟩ := length_ge_of_object hsplit hfields ⟨hkeys, hvalues⟩
      have hle := length_frame_deliver_le hv' hw' hv hw htopic
      obtain ⟨rest, hrest⟩ := Json.render_object_head raw
      exact .inl ⟨(hrest ▸ hsqueezes).opensWith, Nat.le_trans hle (by omega)⟩
    | @array items hitems =>
      obtain ⟨hv', hw', hge⟩ := length_ge_of_array hsplit hfields hitems
      have hle := length_frame_deliver_le hv' hw' hv hw htopic
      obtain ⟨rest, hrest⟩ := Json.render_array_head items
      exact .inr ⟨(hrest ▸ hsqueezes).opensWith, Nat.le_trans hle (by omega)⟩
    | _ => cases hsplit
  refine ⟨hgrowth, fun hfits hover => ?_⟩
  rcases hgrowth with ⟨-, hle⟩ | ⟨hopens, hle⟩
  · omega
  · exact ⟨hopens, by omega⟩

theorem delivery_length_of_small :
    let frame := (publish "/channels/c1/messages?v=1" [7]).frame
    let delivery := (deliver (Topic.edgeTopic ⟨"c1", by decide⟩ "") [7]).frame
    ofFrame? frame = some (.publish "/channels/c1/messages?v=1" [7]) ∧
    Topic.parse "/channels/c1/messages?v=1" = .ok ⟨⟨"c1", by decide⟩, ""⟩ ∧
    (OpensWith 0x7B frame ∧ delivery.length ≤ frame.length ∨
      OpensWith 0x5B frame ∧ delivery.length ≤ frame.length + 25) :=
  have hframe := ofFrame?_frame (.publish "/channels/c1/messages?v=1" [7])
  have htopic : Topic.parse "/channels/c1/messages?v=1" = .ok ⟨⟨"c1", by decide⟩, ""⟩ := by decide
  ⟨hframe, htopic, (delivery_length hframe htopic).1⟩

def listed (topic : String) (payload : Bytes) : Bytes :=
  (Value.array [toJson "Publish", toJson topic, toJson payload]).render

theorem ofFrame?_listed (topic : String) (payload : Bytes) :
    ofFrame? (listed topic payload) = some (.publish topic payload) := by
  have hwritten : (Value.array [toJson "Publish", toJson topic, toJson payload]).Written 2 := by
    refine .array ?_
    simp only [List.forall_mem_cons]
    exact ⟨(written "Publish").mono (by decide), (written topic).mono (by decide), written payload,
      fun v hv => absurd hv List.not_mem_nil⟩
  rw [ofFrame?, Wire.decode?, listed, Json.read_render hwritten room_packet, Option.bind_some]
  change (if _ then _ else none) = _
  have hkind : (toJson "Publish").text? = some "Publish" := Wire.ofJson?_toJson "Publish"
  rw [if_pos hwritten.isSound, split?, hkind, Option.map_some, Option.bind_some]
  simp [ofBody?, Body.two?, Body.fields?, Json.listedFields?]

theorem length_deliver_listed (topic : String) (payload : Bytes) :
    (deliver topic payload).frame.length = (listed topic payload).length + 25 := by
  rw [length_frame_deliver, listed, Json.length_render_array (List.cons_ne_nil _ _)]
  have hkind : (toJson "Publish").render.length = 9 := by decide
  simp only [hkind, List.map_cons, List.map_nil, List.sum_cons, List.sum_nil]
  omega

theorem length_render_zeros (n : Nat) :
    (toJson (List.replicate (n + 1) (0 : UInt8))).render.length = 2 * (n + 1) + 1 := by
  have hzero : (toJson (0 : UInt8)).render.length = 1 := by decide
  change (Value.array ((List.replicate (n + 1) (0 : UInt8)).map toJson)).render.length = _
  rw [Json.length_render_array (by simp), List.map_replicate, List.map_replicate, hzero,
    List.sum_replicate]
  simp [Nat.mul_comm]

/-- A publish of just the allowed length whose delivery is longer. -/
theorem delivery_outgrows_limit :
    let payload := List.replicate 524270 0
    let frame := listed "channels/c1/messages" payload
    let delivery := (deliver (Topic.edgeTopic ⟨"c1", by decide⟩ "") payload).frame
    ofFrame? frame = some (.publish "channels/c1/messages" payload) ∧
    Topic.parse "channels/c1/messages" = .ok ⟨⟨"c1", by decide⟩, ""⟩ ∧
    frame.length = maxFrameLength ∧ delivery.length = maxFrameLength + 25 := by
  intro payload frame delivery
  have htopic : (toJson "channels/c1/messages").render.length = 22 := by decide
  have hedge : Topic.edgeTopic ⟨"c1", by decide⟩ "" = "channels/c1/messages" := by decide
  have hgrown : delivery.length = frame.length + 25 := by
    change (deliver _ payload).frame.length = _
    rw [hedge]
    exact length_deliver_listed _ _
  have hdelivery : delivery.length = maxFrameLength + 25 := by
    change (deliver _ payload).frame.length = _
    rw [hedge, length_frame_deliver, length_render_zeros, htopic]
    rfl
  exact ⟨ofFrame?_listed _ _, by decide, by omega, hdelivery⟩

end Packet

end DeviceGateway
