import DeviceGateway.Text.Blank
import DeviceGateway.Proofs.Text.Joining
import Mathlib.Data.List.TakeWhile

/-!
# Trimming

A text is what trimming leaves of it with blanks around that, and what is left begins and ends with
no blank. So a text that begins and ends with none is found again whatever blanks are put around it.
-/

namespace DeviceGateway.Text

def AllBlank (s : List Char) : Prop := ∀ c ∈ s, isBlank c = true

structure Tight (s : List Char) : Prop where
  head : ∀ c ∈ s.head?, isBlank c = false
  last : ∀ c ∈ s.getLast?, isBlank c = false

theorem all_iff_forall_mem {o : Option Char} :
    o.all (fun c => !isBlank c) = true ↔ ∀ c ∈ o, isBlank c = false := by
  simp [Option.all_eq_true]

instance (s : List Char) : Decidable (Tight s) :=
  decidable_of_iff
    (s.head?.all (fun c => !isBlank c) = true ∧ s.getLast?.all (fun c => !isBlank c) = true)
    ⟨fun h => ⟨all_iff_forall_mem.1 h.1, all_iff_forall_mem.1 h.2⟩,
      fun h => ⟨all_iff_forall_mem.2 h.head, all_iff_forall_mem.2 h.last⟩⟩

def Padded (e s : List Char) : Prop :=
  ∃ before after, AllBlank before ∧ AllBlank after ∧ s = before ++ e ++ after

variable {s e b : List Char}

theorem AllBlank.dropWhile (h : AllBlank b) : b.dropWhile isBlank = [] :=
  List.dropWhile_eq_nil_iff.2 h

theorem AllBlank.dropWhile_append (h : AllBlank b) (s : List Char) :
    (b ++ s).dropWhile isBlank = s.dropWhile isBlank := by
  rw [List.dropWhile_append, h.dropWhile]
  rfl

theorem AllBlank.reverse (h : AllBlank b) : AllBlank b.reverse :=
  fun c hc => h c (List.mem_reverse.1 hc)

theorem AllBlank.not_mem (h : AllBlank b) {c : Char} (hc : isBlank c = false) : c ∉ b := by
  intro hmem
  rw [h c hmem] at hc
  cases hc

theorem AllBlank.trim (h : AllBlank b) : trim b = [] := by
  rw [Text.trim, h.dropWhile]
  rfl

theorem dropWhile_isBlank_of_head (h : ∀ c ∈ s.head?, isBlank c = false) (hne : s ≠ [])
    (t : List Char) : (s ++ t).dropWhile isBlank = s ++ t := by
  obtain ⟨c, s, rfl⟩ := List.exists_cons_of_ne_nil hne
  exact List.dropWhile_cons_of_neg (by simp [h c rfl])

theorem Padded.trim_eq (h : Padded e s) (he : Tight e) : trim s = e := by
  obtain ⟨before, after, hbefore, hafter, rfl⟩ := h
  by_cases hne : e = []
  · subst hne
    refine AllBlank.trim fun c hc => ?_
    rw [List.append_nil, List.mem_append] at hc
    exact hc.elim (hbefore c) (hafter c)
  · have hlast : ∀ c ∈ e.reverse.head?, isBlank c = false := by
      rw [List.head?_reverse]
      exact he.last
    have hend : e.reverse.dropWhile isBlank = e.reverse := by
      simpa using dropWhile_isBlank_of_head hlast (by simpa using hne) []
    rw [trim, List.append_assoc, hbefore.dropWhile_append,
      dropWhile_isBlank_of_head he.head hne, List.reverse_append,
      hafter.reverse.dropWhile_append, hend, List.reverse_reverse]

theorem exists_allBlank_append_dropWhile (s : List Char) :
    ∃ before, AllBlank before ∧ s = before ++ s.dropWhile isBlank :=
  ⟨s.takeWhile isBlank, fun _ hc => List.mem_takeWhile_imp hc,
    List.takeWhile_append_dropWhile.symm⟩

theorem head_dropWhile_isBlank (s : List Char) :
    ∀ c ∈ (s.dropWhile isBlank).head?, isBlank c = false := by
  intro c hc
  have h := List.head?_dropWhile_not isBlank s
  rw [Option.mem_def.1 hc] at h
  exact h

theorem padded_trim (s : List Char) : Padded (trim s) s := by
  obtain ⟨before, hbefore, hs⟩ := exists_allBlank_append_dropWhile s
  obtain ⟨after, hafter, hrest⟩ := exists_allBlank_append_dropWhile (s.dropWhile isBlank).reverse
  refine ⟨before, after.reverse, hbefore, hafter.reverse, ?_⟩
  rw [List.append_assoc, trim, ← List.reverse_append, ← hrest, List.reverse_reverse, ← hs]

theorem tight_trim (s : List Char) : Tight (trim s) := by
  have hlast : ∀ c ∈ (trim s).getLast?, isBlank c = false := by
    rw [trim, List.getLast?_reverse]
    exact head_dropWhile_isBlank _
  refine ⟨fun c hc => ?_, hlast⟩
  -- What trimming leaves starts as the text does once the blanks in front are gone.
  obtain ⟨after, -, hrest⟩ := exists_allBlank_append_dropWhile (s.dropWhile isBlank).reverse
  have hlead : s.dropWhile isBlank = trim s ++ after.reverse := by
    rw [trim, ← List.reverse_append, ← hrest, List.reverse_reverse]
  apply head_dropWhile_isBlank s
  rw [hlead, List.head?_append, Option.mem_def.1 hc]
  rfl

theorem trim_eq_nil_iff : trim s = [] ↔ AllBlank s := by
  constructor
  · intro h
    obtain ⟨before, after, hbefore, hafter, hs⟩ := padded_trim s
    rw [h, List.append_nil] at hs
    rw [hs]
    exact fun c hc => (List.mem_append.1 hc).elim (hbefore c) (hafter c)
  · exact AllBlank.trim

theorem mem_of_mem_trim {c : Char} (h : c ∈ trim s) : c ∈ s := by
  obtain ⟨before, after, -, -, hs⟩ := padded_trim s
  rw [hs]
  exact List.mem_append_left _ (List.mem_append_right _ h)

theorem trim_append_left (h : AllBlank b) (s : List Char) : trim (b ++ s) = trim s := by
  rw [trim, h.dropWhile_append, trim]

theorem trim_append_right (h : AllBlank b) (s : List Char) : trim (s ++ b) = trim s := by
  obtain ⟨before, after, hbefore, hafter, hs⟩ := padded_trim s
  refine Padded.trim_eq ⟨before, after ++ b, hbefore, fun c hc => ?_, ?_⟩ (tight_trim s)
  · exact (List.mem_append.1 hc).elim (hafter c) (h c)
  · rw [← List.append_assoc, ← hs]

section
variable {sep : Char → Bool}

theorem pieces_append_left (h : ∀ c ∈ b, sep c = false) (s : List Char) :
    ∃ first rest, pieces sep s = first :: rest ∧ pieces sep (b ++ s) = (b ++ first) :: rest := by
  induction b with
  | nil =>
    obtain ⟨first, rest, hs⟩ := List.exists_cons_of_ne_nil (pieces_ne_nil sep s)
    exact ⟨first, rest, hs, hs⟩
  | cons c b ih =>
    obtain ⟨first, rest, hs, hb⟩ := ih fun x hx => h x (List.mem_cons_of_mem _ hx)
    exact ⟨first, rest, hs, pieces_cons_of_not_sep (h c List.mem_cons_self) hb⟩

theorem pieces_append_right (h : ∀ c ∈ b, sep c = false) (s : List Char) :
    ∃ front last, pieces sep s = front ++ [last] ∧ pieces sep (s ++ b) = front ++ [last ++ b] := by
  induction s with
  | nil => exact ⟨[], [], rfl, pieces_of_forall_not_sep h⟩
  | cons c s ih =>
    obtain ⟨front, last, hs, hb⟩ := ih
    cases hc : sep c with
    | true =>
      refine ⟨[] :: front, last, ?_, ?_⟩
      · rw [pieces_cons_of_sep hc, hs, List.cons_append]
      · rw [List.cons_append, pieces_cons_of_sep hc, hb, List.cons_append]
    | false =>
      cases front with
      | nil =>
        exact ⟨[], c :: last, pieces_cons_of_not_sep hc hs, pieces_cons_of_not_sep hc hb⟩
      | cons p front =>
        exact ⟨(c :: p) :: front, last, pieces_cons_of_not_sep hc hs, pieces_cons_of_not_sep hc hb⟩

end

end DeviceGateway.Text
