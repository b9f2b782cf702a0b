import DeviceGateway.Text.Pieces

/-! Cutting undoes joining, as long as no piece holds a separator; and what a piece holds. -/

namespace DeviceGateway.Text
variable {sep : Char → Bool} {c : Char}

theorem pieces_append_sep (hc : sep c = true) (a b : List Char) :
    pieces sep (a ++ c :: b) = pieces sep a ++ pieces sep b := by
  induction a with
  | nil => exact pieces_cons_of_sep hc b
  | cons x a ih =>
    obtain ⟨p, ps, hp⟩ := List.exists_cons_of_ne_nil (pieces_ne_nil sep a)
    rw [hp] at ih
    cases hx : sep x with
    | true => rw [List.cons_append, pieces_cons_of_sep hx, pieces_cons_of_sep hx, ih, hp]; rfl
    | false =>
      rw [List.cons_append, pieces_cons_of_not_sep hx ih, pieces_cons_of_not_sep hx hp]
      rfl

theorem pieces_of_forall_not_sep {s : List Char} (h : ∀ x ∈ s, sep x = false) :
    pieces sep s = [s] := by
  induction s with
  | nil => rfl
  | cons x s ih =>
    have hs := ih fun y hy => h y (List.mem_cons_of_mem _ hy)
    exact pieces_cons_of_not_sep (h x List.mem_cons_self) hs

theorem join_cons (p : List Char) (ps : List (List Char)) :
    join c (p :: ps) = p ++ ps.flatMap (c :: ·) := by
  induction ps generalizing p with
  | nil => simp [join]
  | cons q qs ih =>
    rw [join, ih q]
    · simp
    · simp

theorem pieces_join (hc : sep c = true) {ps : List (List Char)} (hne : ps ≠ [])
    (h : ∀ p ∈ ps, ∀ x ∈ p, sep x = false) : pieces sep (join c ps) = ps := by
  induction ps with
  | nil => exact absurd rfl hne
  | cons p ps ih =>
    have hp : ∀ x ∈ p, sep x = false := h p List.mem_cons_self
    cases ps with
    | nil => exact pieces_of_forall_not_sep hp
    | cons q qs =>
      have hrest := ih (by simp) fun r hr => h r (List.mem_cons_of_mem _ hr)
      rw [join, pieces_append_sep hc, pieces_of_forall_not_sep hp, hrest]
      · rfl
      · simp

theorem of_mem_pieces {s p : List Char} (hp : p ∈ pieces sep s) {x : Char} (hx : x ∈ p) :
    x ∈ s ∧ sep x = false := by
  induction s generalizing p with
  | nil =>
    rw [pieces_nil, List.mem_singleton] at hp
    simp [hp] at hx
  | cons y s ih =>
    obtain ⟨q, qs, hq⟩ := List.exists_cons_of_ne_nil (pieces_ne_nil sep s)
    cases hy : sep y with
    | true =>
      rw [pieces_cons_of_sep hy, List.mem_cons] at hp
      rcases hp with rfl | hp
      · simp at hx
      · exact ⟨List.mem_cons_of_mem _ (ih hp hx).1, (ih hp hx).2⟩
    | false =>
      rw [pieces_cons_of_not_sep hy hq, List.mem_cons] at hp
      rcases hp with rfl | hp
      · rcases List.mem_cons.1 hx with rfl | hx
        · exact ⟨List.mem_cons_self, hy⟩
        · have h := ih (hq ▸ List.mem_cons_self) hx
          exact ⟨List.mem_cons_of_mem _ h.1, h.2⟩
      · have h := ih (hq ▸ List.mem_cons_of_mem _ hp) hx
        exact ⟨List.mem_cons_of_mem _ h.1, h.2⟩

theorem mem_join {ps : List (List Char)} {x : Char} (hx : x ∈ join c ps) :
    x = c ∨ ∃ p ∈ ps, x ∈ p := by
  cases ps with
  | nil => simp [join] at hx
  | cons p ps =>
    rw [join_cons, List.mem_append, List.mem_flatMap] at hx
    rcases hx with hx | ⟨q, hq, hx⟩
    · exact .inr ⟨p, List.mem_cons_self, hx⟩
    · rcases List.mem_cons.1 hx with rfl | hx
      · exact .inl rfl
      · exact .inr ⟨q, List.mem_cons_of_mem _ hq, hx⟩

theorem join_ne_nil {ps : List (List Char)} (hne : ps ≠ []) (h : ∀ p ∈ ps, p ≠ []) :
    join c ps ≠ [] := by
  obtain ⟨p, ps, rfl⟩ := List.exists_cons_of_ne_nil hne
  rw [join_cons]
  exact List.append_ne_nil_of_left_ne_nil (h p List.mem_cons_self) _

theorem map_join {d : Char} {ps : List (List Char)} (h : ∀ p ∈ ps, ∀ x ∈ p, x ≠ c) :
    (join c ps).map (fun x => if x = c then d else x) = join d ps := by
  have keep : ∀ p ∈ ps, p.map (fun x => if x = c then d else x) = p := fun p hp =>
    (List.map_congr_left fun x hx => if_neg (h p hp x hx)).trans (List.map_id' p)
  induction ps with
  | nil => rfl
  | cons p ps ih =>
    have hp := keep p List.mem_cons_self
    have hps := ih (fun q hq => h q (List.mem_cons_of_mem _ hq))
      fun q hq => keep q (List.mem_cons_of_mem _ hq)
    cases ps with
    | nil => simpa only [join] using hp
    | cons q qs =>
      simp only [join, List.map_append, List.map_cons, if_true] at hps ⊢
      rw [hp, hps]

end DeviceGateway.Text
