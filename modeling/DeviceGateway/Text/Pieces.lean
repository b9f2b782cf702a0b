/-! Cutting text at separators. `pieces` keeps empty pieces, so joining them with the separator
gives the text back; `cutAt` cuts at the first separator only. -/

namespace DeviceGateway.Text

def pieces (sep : Char → Bool) (s : List Char) : List (List Char) :=
  s.foldr (fun c done =>
    if sep c then [] :: done
    else match done with
      | [] => [[c]]
      | piece :: rest => (c :: piece) :: rest) [[]]

def join (sep : Char) : List (List Char) → List Char
  | [] => []
  | [piece] => piece
  | piece :: rest => piece ++ sep :: join sep rest

def cutAt (sep : Char) (s : List Char) : Option (List Char × List Char) :=
  match s.dropWhile (· != sep) with
  | [] => none
  | _ :: rest => some (s.takeWhile (· != sep), rest)

def cutAtLast (sep : Char) (s : List Char) : Option (List Char × List Char) :=
  (cutAt sep s.reverse).map fun (after, before) => (before.reverse, after.reverse)

def afterLead (lead s : List Char) : Option (List Char) :=
  if lead.isPrefixOf s then some (s.drop lead.length) else none

theorem pieces_nil (sep : Char → Bool) : pieces sep [] = [[]] := rfl

theorem pieces_ne_nil (sep : Char → Bool) (s : List Char) : pieces sep s ≠ [] := by
  induction s with
  | nil => simp [pieces]
  | cons c s ih =>
    simp only [pieces, List.foldr_cons]
    split
    · simp
    · split <;> simp

theorem pieces_cons_of_sep {sep : Char → Bool} {c : Char} (h : sep c = true) (s : List Char) :
    pieces sep (c :: s) = [] :: pieces sep s := by
  simp [pieces, h]

theorem pieces_cons_of_not_sep {sep : Char → Bool} {c : Char} (h : sep c = false)
    {s piece : List Char} {rest : List (List Char)} (hs : pieces sep s = piece :: rest) :
    pieces sep (c :: s) = (c :: piece) :: rest := by
  simp only [pieces, List.foldr_cons, h] at hs ⊢
  simp [hs]

theorem join_pieces (sep : Char) (s : List Char) : join sep (pieces (· == sep) s) = s := by
  induction s with
  | nil => rfl
  | cons c s ih =>
    cases hp : pieces (· == sep) s with
    | nil => exact absurd hp (pieces_ne_nil _ s)
    | cons piece rest =>
      rw [hp] at ih
      by_cases hc : (c == sep) = true
      · rw [@pieces_cons_of_sep (· == sep) c hc s, hp]
        simp only [join, ih, beq_iff_eq.1 hc, List.nil_append]
      · rw [@pieces_cons_of_not_sep (· == sep) c (by simpa using hc) s piece rest hp]
        cases rest with
        | nil => simp only [join] at ih ⊢; rw [ih]
        | cons q qs => simp only [join] at ih ⊢; rw [List.cons_append, ih]

theorem afterLead_eq_some_iff {lead s rest : List Char} :
    afterLead lead s = some rest ↔ s = lead ++ rest := by
  simp only [afterLead]
  split
  · rename_i h
    obtain ⟨t, rfl⟩ := List.isPrefixOf_iff_prefix.1 h
    simp
  · rename_i h
    simp only [reduceCtorEq, false_iff]
    rintro rfl
    exact h (List.isPrefixOf_iff_prefix.2 (List.prefix_append _ _))

end DeviceGateway.Text
