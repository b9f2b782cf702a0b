import DeviceGateway.Json.Record
import DeviceGateway.Json.Reader
import DeviceGateway.Proofs.Text.Ascii

/-!
# Texts that are written can be read

The escapes of a text name its characters one by one, so reading them gives the text back. In bytes
they form the inside of a string: no quote stands bare, every escape is whole, and no control is
left. What lies outside ASCII is written in bytes that are none of these.
-/

namespace DeviceGateway.Json

theorem escapeChar_cases (c : Char) :
    (∃ x, shortEscape? x = some c ∧ escapeChar c = ['\\', x]) ∨
    (c.toNat < 0x20 ∧ escapeChar c = escapeControl c) ∨
    (0x20 ≤ c.toNat ∧ c ≠ '"' ∧ c ≠ '\\' ∧ escapeChar c = [c]) := by
  by_cases hquote : c = '"'
  · exact .inl ⟨'"', by simp [shortEscape?, hquote], by simp [escapeChar, hquote]⟩
  by_cases hback : c = '\\'
  · exact .inl ⟨'\\', by simp [shortEscape?, hback], by simp [escapeChar, hback]⟩
  by_cases hb : c = '\x08'
  · exact .inl ⟨'b', by simp [shortEscape?, hb], by simp [escapeChar, hb]⟩
  by_cases hf : c = '\x0c'
  · exact .inl ⟨'f', by simp [shortEscape?, hf], by simp [escapeChar, hf]⟩
  by_cases hn : c = '\n'
  · exact .inl ⟨'n', by simp [shortEscape?, hn], by simp [escapeChar, hn]⟩
  by_cases hr : c = '\r'
  · exact .inl ⟨'r', by simp [shortEscape?, hr], by simp [escapeChar, hr]⟩
  by_cases ht : c = '\t'
  · exact .inl ⟨'t', by simp [shortEscape?, ht], by simp [escapeChar, ht]⟩
  have h : escapeChar c = if c.toNat < 0x20 then escapeControl c else [c] := by
    simp only [escapeChar, if_neg hquote, if_neg hback, if_neg hb, if_neg hf, if_neg hn, if_neg hr,
      if_neg ht]
  by_cases hlow : c.toNat < 0x20
  · exact .inr (.inl ⟨hlow, h.trans (if_pos hlow)⟩)
  · exact .inr (.inr ⟨Nat.le_of_not_lt hlow, hquote, hback, h.trans (if_neg hlow)⟩)

theorem unescapeOnto_cons {out rest : List Char} {c : Char} (h : c ≠ '\\') :
    unescapeOnto out (c :: rest) = unescapeOnto (c :: out) rest := by
  rw [unescapeOnto]
  all_goals simp_all

theorem unescapeOnto_short {out rest : List Char} {c x : Char} (h : shortEscape? x = some c) :
    unescapeOnto out ('\\' :: x :: rest) = unescapeOnto (c :: out) rest := by
  have hu : x ≠ 'u' := by
    rintro rfl
    cases h
  rw [unescapeOnto, h]
  simp_all

theorem unit?_control :
    ∀ n < 0x20, unit? '0' '0' (hexDigit (n / 16)) (hexDigit (n % 16)) = some n := by
  decide

theorem unescapeOnto_control {out rest : List Char} {c : Char} (h : c.toNat < 0x20) :
    unescapeOnto out (escapeControl c ++ rest) = unescapeOnto (c :: out) rest := by
  have htrail : isTrail c.toNat = false := by simp [isTrail]; omega
  have hlead : isLead c.toNat = false := by simp [isLead]; omega
  simp only [escapeControl, List.cons_append, List.nil_append, unescapeOnto, unit?_control _ h,
    htrail, hlead, Char.ofNat_toNat, Bool.false_eq_true, if_false]

theorem unescapeOnto_escapeChar (out rest : List Char) (c : Char) :
    unescapeOnto out (escapeChar c ++ rest) = unescapeOnto (c :: out) rest := by
  rcases escapeChar_cases c with ⟨x, hx, h⟩ | ⟨hlow, h⟩ | ⟨-, -, hback, h⟩
  · rw [h]
    exact unescapeOnto_short hx
  · rw [h]
    exact unescapeOnto_control hlow
  · rw [h]
    exact unescapeOnto_cons hback

theorem unescapeOnto_escape (out s : List Char) :
    unescapeOnto out (escape s) = some (out.reverse ++ s) := by
  induction s generalizing out with
  | nil => simp [escape, unescapeOnto]
  | cons c s ih =>
    rw [escape, List.flatMap_cons, unescapeOnto_escapeChar, ← escape, ih]
    simp

theorem unescape_escape (s : List Char) : unescape (escape s) = some s :=
  unescapeOnto_escape [] s

theorem textOf?_escape (s : String) :
    textOf? (Text.utf8 (String.ofList (escape s.toList))) = some s := by
  simp [textOf?, Text.ofUtf8?_utf8, unescape_escape]

def TextPart.goOn? (p : TextPart) (c : Char) : Option TextPart :=
  match p, c with
  | .plain, '"' => none
  | _, _ => p.next? c

def TextPart.after? (p : TextPart) (raw : Bytes) : Option TextPart :=
  raw.foldlM (fun p b => p.goOn? (Char.ofUInt8 b)) p

def IsInside (raw : Bytes) : Prop := TextPart.plain.after? raw = some .plain

theorem TextPart.after?_append (p : TextPart) (a b : Bytes) :
    p.after? (a ++ b) = (p.after? a).bind (·.after? b) := by
  simp only [after?, List.foldlM_append]
  rfl

theorem goOn?_plain {c : Char} (hlow : ' ' ≤ c) (hquote : c ≠ '"') (hback : c ≠ '\\') :
    TextPart.plain.goOn? c = some .plain := by
  rw [TextPart.goOn?]
  · rw [TextPart.next?, if_neg hback, if_neg (Char.not_lt.2 hlow)]
  · simpa using hquote

theorem after?_ascii {s : List Char} (h : ∀ c ∈ s, Text.IsAscii c) (p : TextPart) :
    p.after? (s.flatMap String.utf8EncodeChar) = s.foldlM TextPart.goOn? p := by
  induction s generalizing p with
  | nil => rfl
  | cons c s ih =>
    have hc : Text.IsAscii c := h c List.mem_cons_self
    have hs : ∀ c ∈ s, Text.IsAscii c := fun c hc => h c (List.mem_cons_of_mem _ hc)
    rw [List.flatMap_cons, Text.utf8EncodeChar_of_isAscii hc, List.singleton_append,
      TextPart.after?, List.foldlM_cons, Text.ofUInt8_toUInt8 hc, List.foldlM_cons]
    congr 1
    funext p
    exact ih hs p

theorem isInside_of_forall {raw : Bytes} (h : ∀ b ∈ raw, 0x80 ≤ b.toNat) : IsInside raw := by
  induction raw with
  | nil => rfl
  | cons b raw ih =>
    have hb : 0x80 ≤ (Char.ofUInt8 b).toNat := h b List.mem_cons_self
    have hgo : TextPart.plain.goOn? (Char.ofUInt8 b) = some .plain := by
      refine goOn?_plain (Nat.le_trans (by decide) hb) ?_ ?_
      all_goals
        intro heq
        rw [heq] at hb
        revert hb
        decide
    rw [IsInside, TextPart.after?, List.foldlM_cons, hgo]
    exact ih fun b hb => h b (List.mem_cons_of_mem _ hb)

theorem IsInside.append {a b : Bytes} (ha : IsInside a) (hb : IsInside b) : IsInside (a ++ b) := by
  rw [IsInside, TextPart.after?_append, ha]
  exact hb

theorem isHexDigit_hexDigit : ∀ n < 16, Text.IsAscii (hexDigit n) ∧ isHexDigit (hexDigit n) := by
  decide

theorem isInside_escapeControl {c : Char} (h : c.toNat < 0x20) :
    IsInside ((escapeControl c).flatMap String.utf8EncodeChar) := by
  obtain ⟨hascii, hhex⟩ := isHexDigit_hexDigit (c.toNat / 16) (by omega)
  obtain ⟨hascii', hhex'⟩ := isHexDigit_hexDigit (c.toNat % 16) (by omega)
  have hall : ∀ x ∈ escapeControl c, Text.IsAscii x := by
    simp only [escapeControl, List.forall_mem_cons]
    exact ⟨by decide, by decide, by decide, by decide, hascii, hascii', by simp⟩
  have hstart : ['\\', 'u', '0', '0'].foldlM TextPart.goOn? .plain = some (.hex 1) := rfl
  have hhigh : TextPart.goOn? (.hex 1) (hexDigit (c.toNat / 16)) = some (.hex 0) := if_pos hhex
  have hlow : TextPart.goOn? (.hex 0) (hexDigit (c.toNat % 16)) = some .plain := if_pos hhex'
  rw [IsInside, after?_ascii hall]
  change (['\\', 'u', '0', '0'] ++ [_, _]).foldlM TextPart.goOn? .plain = _
  rw [List.foldlM_append, hstart]
  simp only [List.foldlM_cons, List.foldlM_nil, hhigh, hlow, Option.bind_eq_bind, Option.bind_some,
    Option.pure_def]

theorem isInside_shortEscape {c x : Char} (h : shortEscape? x = some c) :
    IsInside (['\\', x].flatMap String.utf8EncodeChar) := by
  simp only [shortEscape?] at h
  split at h
  case h_9 => cases h
  all_goals rfl

theorem isInside_escapeChar (c : Char) :
    IsInside ((escapeChar c).flatMap String.utf8EncodeChar) := by
  rcases escapeChar_cases c with ⟨x, hx, h⟩ | ⟨hlow, h⟩ | ⟨hge, hquote, hback, h⟩
  · rw [h]
    exact isInside_shortEscape hx
  · rw [h]
    exact isInside_escapeControl hlow
  · rw [h]
    by_cases hascii : Text.IsAscii c
    · have hall : ∀ x ∈ [c], Text.IsAscii x := by simpa using hascii
      rw [IsInside, after?_ascii hall, List.foldlM_cons, goOn?_plain hge hquote hback]
      rfl
    · rw [List.flatMap_singleton]
      exact isInside_of_forall fun b hb => Text.le_of_mem_utf8EncodeChar hascii hb

theorem isInside_escape (s : List Char) : IsInside (Text.utf8 (String.ofList (escape s))) := by
  rw [Text.utf8_ofList]
  induction s with
  | nil => rfl
  | cons c s ih =>
    rw [escape, List.flatMap_cons, List.flatMap_append]
    exact (isInside_escapeChar c).append ih

end DeviceGateway.Json
