import DeviceGateway.Wire.Basic
import DeviceGateway.Proofs.Json.Compact
import Mathlib.Algebra.Order.BigOperators.Group.List
import Mathlib.Algebra.Order.Group.Nat
import Mathlib.Tactic.Ring

/-!
# The written form is the shortest

A text can be given in many forms, and so can a list of numbers: any character may stand as an
escape. The written form escapes a character only where it must, and as briefly as it can, so no
form of the same value takes fewer bytes.
-/

namespace DeviceGateway

namespace Json

def charCost (c : Char) : Nat := ((escapeChar c).flatMap String.utf8EncodeChar).length

def cost (s : List Char) : Nat := (s.map charCost).sum

@[simp] theorem cost_nil : cost [] = 0 := rfl

@[simp] theorem cost_cons (c : Char) (s : List Char) : cost (c :: s) = charCost c + cost s := by
  simp [cost]

@[simp] theorem cost_append (s t : List Char) : cost (s ++ t) = cost s + cost t := by
  simp [cost]

theorem cost_le_of_sublist {s t : List Char} (h : s.Sublist t) : cost s ≤ cost t :=
  (h.map charCost).sum_le_sum fun _ _ => Nat.zero_le _

theorem length_utf8_escape (s : List Char) :
    (Text.utf8 (String.ofList (escape s))).length = cost s := by
  rw [Text.utf8_ofList]
  induction s with
  | nil => rfl
  | cons c s ih =>
    rw [escape, List.flatMap_cons, List.flatMap_append, List.length_append, ← escape, ih, cost_cons,
      charCost]

theorem length_flatMap_of_isAscii {s : List Char} (h : ∀ c ∈ s, Text.IsAscii c) :
    (s.flatMap String.utf8EncodeChar).length = s.length := by
  rw [List.flatMap_def, List.length_flatten, List.map_map, List.map_congr_left (g := fun _ => 1)]
  · simp
  · intro c hc
    simp [Text.utf8EncodeChar_of_isAscii (h c hc)]

theorem isAscii_of_shortEscape? {c x : Char} (h : shortEscape? x = some c) : Text.IsAscii x := by
  simp only [shortEscape?] at h
  split at h
  case h_9 => cases h
  all_goals decide

theorem charCost_le_two_of_shortEscape? {c x : Char} (h : shortEscape? x = some c) :
    charCost c ≤ 2 := by
  simp only [shortEscape?] at h
  split at h <;> cases h
  all_goals decide

theorem charCost_le_six (c : Char) : charCost c ≤ 6 := by
  rcases escapeChar_cases c with ⟨x, hx, -⟩ | ⟨hlow, h⟩ | ⟨-, -, -, h⟩
  · exact Nat.le_trans (charCost_le_two_of_shortEscape? hx) (by decide)
  · have hascii : ∀ x ∈ escapeControl c, Text.IsAscii x := by
      obtain ⟨hhigh, -⟩ := isHexDigit_hexDigit (c.toNat / 16) (by omega)
      obtain ⟨hdigit, -⟩ := isHexDigit_hexDigit (c.toNat % 16) (by omega)
      simp only [escapeControl, List.forall_mem_cons]
      exact ⟨by decide, by decide, by decide, by decide, hhigh, hdigit, by simp⟩
    rw [charCost, h, length_flatMap_of_isAscii hascii]
    exact Nat.le_refl 6
  · rw [charCost, h, List.flatMap_singleton, String.length_utf8EncodeChar]
    exact Nat.le_trans c.utf8Size_le_four (by decide)

theorem charCost_of_plain {c : Char} (hlow : ' ' ≤ c) (hquote : c ≠ '"') (hback : c ≠ '\\') :
    charCost c = (String.utf8EncodeChar c).length := by
  have hnot : ¬c.toNat < 0x20 := Nat.not_lt.2 hlow
  rcases escapeChar_cases c with ⟨x, hx, h⟩ | ⟨hc, -⟩ | ⟨-, -, -, h⟩
  · simp only [shortEscape?] at hx
    split at hx <;> cases hx
    · exact absurd rfl hquote
    · exact absurd rfl hback
    · rfl
    all_goals exact absurd (by decide) hnot
  · exact absurd hc hnot
  · rw [charCost, h, List.flatMap_singleton]

theorem IsInside.of_append {a b : Bytes} (ha : IsInside a) (h : IsInside (a ++ b)) :
    IsInside b := by
  rwa [IsInside, TextPart.after?_append, ha] at h

theorem IsInside.plain {c : Char} {rest : Bytes} (hback : c ≠ '\\')
    (h : IsInside (String.utf8EncodeChar c ++ rest)) :
    charCost c = (String.utf8EncodeChar c).length ∧ IsInside rest := by
  by_cases hascii : Text.IsAscii c
  · rw [Text.utf8EncodeChar_of_isAscii hascii, IsInside, List.singleton_append, TextPart.after?,
      List.foldlM_cons, Text.ofUInt8_toUInt8 hascii] at h
    obtain ⟨part, hgo, hrest⟩ := Option.bind_eq_some_iff.1 h
    simp only [TextPart.goOn?] at hgo
    split at hgo
    · cases hgo
    · rename_i hquote
      rw [TextPart.next?, if_neg hback] at hgo
      split at hgo <;> cases hgo
      rename_i hlow
      exact ⟨charCost_of_plain (Char.not_lt.1 hlow) (hquote rfl) hback, hrest⟩
  · have hhigh : ∀ b ∈ String.utf8EncodeChar c, 0x80 ≤ b.toNat :=
      fun b hb => Text.le_of_mem_utf8EncodeChar hascii hb
    have hge : 0x80 ≤ c.toNat := Nat.le_of_not_lt hascii
    refine ⟨charCost_of_plain (Nat.le_trans (by decide) hge) ?_ hback,
      (isInside_of_forall hhigh).of_append h⟩
    rintro rfl
    exact hascii (by decide)

theorem isHexDigit_of_hexValue? {c : Char} {n : Nat} (h : hexValue? c = some n) :
    Text.IsAscii c ∧ isHexDigit c = true := by
  have hle {x : Char} (hc : c ≤ x) (hx : Text.IsAscii x) : Text.IsAscii c := Nat.lt_of_le_of_lt hc hx
  simp only [hexValue?] at h
  split at h
  · rename_i hc
    exact ⟨hle hc.2 (by decide), by simp [isHexDigit, hc]⟩
  · split at h
    · rename_i hc
      exact ⟨hle hc.2 (by decide), by simp [isHexDigit, hc]⟩
    · split at h
      · rename_i hc
        exact ⟨hle hc.2 (by decide), by simp [isHexDigit, hc]⟩
      · cases h

theorem of_unit? {a b c d : Char} {n : Nat} (h : unit? a b c d = some n) :
    (['\\', 'u', a, b, c, d].flatMap String.utf8EncodeChar).length = 6 ∧
      IsInside (['\\', 'u', a, b, c, d].flatMap String.utf8EncodeChar) := by
  simp only [unit?] at h
  split at h
  · rename_i ha hb hc hd
    obtain ⟨ha, ha'⟩ := isHexDigit_of_hexValue? ha
    obtain ⟨hb, hb'⟩ := isHexDigit_of_hexValue? hb
    obtain ⟨hc, hc'⟩ := isHexDigit_of_hexValue? hc
    obtain ⟨hd, hd'⟩ := isHexDigit_of_hexValue? hd
    have hall : ∀ x ∈ ['\\', 'u', a, b, c, d], Text.IsAscii x := by
      simp only [List.forall_mem_cons]
      exact ⟨by decide, by decide, ha, hb, hc, hd, by simp⟩
    have hstart : ['\\', 'u'].foldlM TextPart.goOn? .plain = some (.hex 3) := rfl
    have hdigit {x : Char} (k : Nat) (hx : isHexDigit x = true) :
        TextPart.goOn? (.hex (k + 1)) x = some (.hex k) := if_pos hx
    have hlast : TextPart.goOn? (.hex 0) d = some .plain := if_pos hd'
    refine ⟨length_flatMap_of_isAscii hall, ?_⟩
    rw [IsInside, after?_ascii hall]
    change (['\\', 'u'] ++ [a, b, c, d]).foldlM TextPart.goOn? .plain = _
    rw [List.foldlM_append, hstart]
    simp only [List.foldlM_cons, List.foldlM_nil, hdigit _ ha', hdigit _ hb', hdigit _ hc', hlast,
      Option.bind_eq_bind, Option.bind_some, Option.pure_def]
  · cases h

def Paid (out r s : List Char) : Prop :=
  ∃ t, r = out.reverse ++ t ∧ cost t ≤ (s.flatMap String.utf8EncodeChar).length

theorem Paid.step {out r rest : List Char} {c : Char} (first : List Char)
    (hcost : charCost c ≤ (first.flatMap String.utf8EncodeChar).length)
    (h : Paid (c :: out) r rest) : Paid out r (first ++ rest) := by
  obtain ⟨t, rfl, ht⟩ := h
  refine ⟨c :: t, by simp, ?_⟩
  rw [cost_cons, List.flatMap_append, List.length_append]
  exact Nat.add_le_add hcost ht

theorem IsInside.skip {first rest : List Char}
    (h : IsInside ((first ++ rest).flatMap String.utf8EncodeChar))
    (hfirst : IsInside (first.flatMap String.utf8EncodeChar)) :
    IsInside (rest.flatMap String.utf8EncodeChar) :=
  hfirst.of_append (List.flatMap_append ▸ h)

theorem paid_of_unescapeOnto {out s r : List Char} (h : unescapeOnto out s = some r)
    (hs : IsInside (s.flatMap String.utf8EncodeChar)) : Paid out r s := by
  induction out, s using unescapeOnto.induct with
  | case1 out =>
    cases h
    exact ⟨[], by simp, Nat.le_refl _⟩
  | case4 out a b c d n hunit htrail hlead e f g h' rest m hunit' htrail' ih =>
    simp only [unescapeOnto, hunit, htrail, hlead, hunit', htrail', if_true] at h
    obtain ⟨hlength, hfirst⟩ := of_unit? hunit
    obtain ⟨hlength', hsecond⟩ := of_unit? hunit'
    have hboth := List.flatMap_append ▸ hfirst.append hsecond
    refine .step (['\\', 'u', a, b, c, d] ++ ['\\', 'u', e, f, g, h']) ?_
      (ih h (hs.skip hboth))
    rw [List.flatMap_append, List.length_append, hlength]
    exact Nat.le_add_right_of_le (charCost_le_six _)
  | case8 out a b c d rest n hunit htrail hlead ih =>
    simp only [unescapeOnto, hunit, htrail, hlead] at h
    obtain ⟨hlength, hfirst⟩ := of_unit? hunit
    refine .step ['\\', 'u', a, b, c, d] ?_ (ih h (hs.skip hfirst))
    rw [hlength]
    exact charCost_le_six _
  | case10 out x rest hno c hc ih =>
    rw [unescapeOnto_short hc] at h
    refine .step ['\\', x] ?_ (ih h (hs.skip (isInside_shortEscape hc)))
    have hascii : ∀ y ∈ ['\\', x], Text.IsAscii y := by
      simp only [List.forall_mem_cons]
      exact ⟨by decide, isAscii_of_shortEscape? hc, by simp⟩
    rw [length_flatMap_of_isAscii hascii]
    exact charCost_le_two_of_shortEscape? hc
  | case12 out c rest hno hend hback ih =>
    have hc : c ≠ '\\' := by
      rintro rfl
      cases rest with
      | nil => exact hend rfl rfl
      | cons x rest => exact hback x rest rfl rfl
    rw [unescapeOnto_cons hc] at h
    obtain ⟨hcost, hrest⟩ := IsInside.plain hc hs
    refine .step [c] ?_ (ih h hrest)
    rw [List.flatMap_singleton, hcost]
  | _ => simp_all [unescapeOnto]

theorem cost_le_of_textOf? {raw : Bytes} {s : String} (h : textOf? raw = some s)
    (hraw : IsInside raw) : cost s.toList ≤ raw.length := by
  simp only [textOf?] at h
  split at h
  · cases h
  · rename_i form hform
    obtain ⟨chars, hchars, rfl⟩ := Option.map_eq_some_iff.1 h
    have hbytes : raw = form.toList.flatMap String.utf8EncodeChar := by
      rw [Text.ofUtf8?_eq_some_iff.1 hform, ← Text.utf8_ofList, String.ofList_toList]
    obtain ⟨t, rfl, ht⟩ := paid_of_unescapeOnto hchars (hbytes ▸ hraw)
    rwa [String.toList_ofList, hbytes]

theorem lt_of_naturalFrom {limit v n : Nat} {s : List Char}
    (h : Text.naturalFrom limit v s = .ok n) : n < (v + 1) * 10 ^ s.length := by
  induction s generalizing v with
  | nil =>
    cases h
    simp
  | cons c s ih =>
    simp only [Text.naturalFrom] at h
    split at h
    · cases h
    · rename_i d hd
      have hdigit : d < 10 := by
        simp only [Text.digit?] at hd
        split at hd <;> cases hd
        rename_i hc
        have hle : c.toNat ≤ 57 := hc.2
        have hzero : '0'.toNat = 48 := rfl
        omega
      split at h
      · cases h
      · calc n < (v * 10 + d + 1) * 10 ^ s.length := ih h
          _ ≤ (v + 1) * 10 * 10 ^ s.length := Nat.mul_le_mul_right _ (by omega)
          _ = (v + 1) * 10 ^ (c :: s).length := by rw [List.length_cons, Nat.pow_succ]; ring

theorem length_digits_le {limit n : Nat} {raw : Bytes} (hraw : IsNumeral raw)
    (h : (Value.number raw).natural? limit = some n) : (digits n).length ≤ raw.length := by
  have hpos : 0 < raw.length := by
    cases hraw
    exact Nat.succ_pos _
  simp only [Value.natural?] at h
  split at h
  · rename_i m hm
    cases h
    rw [digits, List.length_map, Nat.length_toDigits_le_iff (by decide) hpos]
    simpa using lt_of_naturalFrom hm
  · cases h

@[simp] theorem length_render_ofText (s : String) :
    (Value.ofText s).render.length = cost s.toList + 2 := by
  rw [Value.ofText, render_string, List.length_cons, List.length_append, length_utf8_escape]
  rfl

theorem length_itemsTail (items : List Value) :
    (itemsTail items).length = (items.map fun v => v.render.length + 1).sum + 1 := by
  simp [itemsTail, List.length_flatMap]

end Json

namespace Wire
open Json (Value)

/-- No form of a value takes fewer bytes than the one it is written in. -/
class Shortest (α : Type) [Wire α] : Prop where
  length_le {v : Value} {a : α} (h : ofJson? v = some a) (hv : v.Formed) :
    (toJson a).render.length ≤ v.render.length

variable {α : Type} [Wire α]

instance : Shortest String where
  length_le {v s} h hv := by
    cases hv with
    | string hraw =>
      rw [Json.render_string]
      have hcost := Json.cost_le_of_textOf? h hraw
      simpa [toJson] using hcost
    | _ => cases h

instance : Shortest UInt8 where
  length_le {v b} h hv := by
    obtain ⟨n, hn, rfl⟩ := Option.map_eq_some_iff.1 h
    cases hv with
    | number hraw =>
      have hlt : n < UInt8.size := by
        simp only [Value.natural?] at hn
        split at hn
        · cases hn
          exact Nat.lt_succ_of_le (Text.naturalFrom_le (Nat.zero_le _) ‹_›)
        · cases hn
      have hdigits := Json.length_digits_le hraw hn
      change (Json.Value.ofNat (UInt8.ofNat n).toNat).render.length ≤ _
      rwa [UInt8.toNat_ofNat_of_lt' hlt, Value.ofNat, Json.render_number, Json.render_number]
    | _ => cases hn

theorem forall₂_of_mapM {items : List Value} {as : List α} (h : items.mapM ofJson? = some as) :
    List.Forall₂ (fun v a => ofJson? v = some a) items as := by
  induction items generalizing as with
  | nil =>
    cases h
    exact .nil
  | cons v items ih =>
    rw [List.mapM_cons] at h
    obtain ⟨a, ha, h⟩ := Option.bind_eq_some_iff.1 h
    obtain ⟨as, has, h⟩ := Option.bind_eq_some_iff.1 h
    cases h
    exact .cons ha (ih has)

theorem length_itemsTail_le [Shortest α] {items : List Value} {as : List α}
    (h : List.Forall₂ (fun v a => ofJson? v = some a) items as) (hitems : ∀ v ∈ items, v.Formed) :
    (Json.itemsTail (as.map toJson)).length ≤ (Json.itemsTail items).length := by
  induction h with
  | nil => exact Nat.le_refl _
  | cons ha has ih =>
    obtain ⟨hv, hitems⟩ := List.forall_mem_cons.1 hitems
    have hhead := Shortest.length_le ha hv
    have hrest := ih hitems
    rw [Json.length_itemsTail, Json.length_itemsTail] at hrest ⊢
    rw [List.map_cons, List.map_cons, List.sum_cons, List.map_cons, List.sum_cons]
    omega

instance [Shortest α] : Shortest (List α) where
  length_le {v as} h hv := by
    cases hv with
    | array hitems =>
      change (Value.array (as.map toJson)).render.length ≤ _
      cases forall₂_of_mapM h with
      | nil => exact Nat.le_refl _
      | cons ha has =>
        obtain ⟨hv, hitems⟩ := List.forall_mem_cons.1 hitems
        have hhead := Shortest.length_le ha hv
        have hrest := length_itemsTail_le has hitems
        rw [List.map_cons, Json.render_array_cons, Json.render_array_cons]
        simp only [List.length_cons, List.length_append]
        omega
    | _ => cases h

end Wire

end DeviceGateway
