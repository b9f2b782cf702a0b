import DeviceGateway.Proofs.Json.Reading

/-!
# Written JSON has no controls

The compact text of a value holds no byte below the blank, line ends included: texts keep their
controls in escapes, numbers have none, and no blanks stand between the parts of a value.
-/

namespace DeviceGateway.Json

def NoControls (bytes : Bytes) : Prop := ∀ b ∈ bytes, ' ' ≤ Char.ofUInt8 b

instance (bytes : Bytes) : Decidable (NoControls bytes) :=
  List.decidableBAll (fun b => ' ' ≤ Char.ofUInt8 b) bytes

variable {a b : Bytes}

theorem noControls_append : NoControls (a ++ b) ↔ NoControls a ∧ NoControls b :=
  List.forall_mem_append

theorem noControls_cons {x : UInt8} :
    NoControls (x :: a) ↔ ' ' ≤ Char.ofUInt8 x ∧ NoControls a :=
  List.forall_mem_cons

theorem noControls_flatMap {α : Type} {f : α → Bytes} {s : List α} :
    NoControls (s.flatMap f) ↔ ∀ x ∈ s, NoControls (f x) := by
  simp only [NoControls, List.mem_flatMap]
  constructor
  · intro h x hx y hy
    exact h y ⟨x, hx, hy⟩
  · intro h y hy
    obtain ⟨x, hx, hy⟩ := hy
    exact h x hx y hy

theorem blank_le_of_isHexDigit {c : Char} (h : isHexDigit c = true) : ' ' ≤ c := by
  simp only [isHexDigit, Bool.or_eq_true, Bool.and_eq_true, decide_eq_true_eq] at h
  obtain (⟨h, -⟩ | ⟨h, -⟩) | ⟨h, -⟩ := h
  all_goals exact Char.le_trans (by decide) h

theorem TextPart.blank_le_of_next? {p q : TextPart} {c : Char} (h : p.next? c = some q) :
    ' ' ≤ c := by
  unfold TextPart.next? at h
  split at h
  · split at h
    · rename_i hback
      rw [hback]
      decide
    · split at h
      · cases h
      · exact Char.not_lt.1 ‹_›
  · decide
  · split at h
    · rename_i hmem
      have hall : "\"\\/bfnrt".toList.all (' ' ≤ ·) = true := by decide
      exact of_decide_eq_true (List.all_eq_true.1 hall _ (List.contains_iff_mem.1 hmem))
    · cases h
  · split at h
    · exact blank_le_of_isHexDigit ‹_›
    · cases h
  · split at h
    · exact blank_le_of_isHexDigit ‹_›
    · cases h

theorem TextPart.noControls_of_after? {p q : TextPart} (h : p.after? a = some q) :
    NoControls a := by
  induction a generalizing p with
  | nil => exact List.forall_mem_nil _
  | cons x a ih =>
    rw [TextPart.after?, List.foldlM_cons] at h
    obtain ⟨r, hr, h⟩ := Option.bind_eq_some_iff.1 h
    refine noControls_cons.2 ⟨?_, ih h⟩
    simp only [TextPart.goOn?] at hr
    split at hr
    · cases hr
    · exact TextPart.blank_le_of_next? hr

theorem IsText.noControls (h : IsText a) : NoControls a := TextPart.noControls_of_after? h.inside

theorem NumberPart.blank_le_of_first? {p : NumberPart} {c : Char} (h : first? c = some p) :
    ' ' ≤ c := by
  rcases first?_cases h with ⟨rfl, -⟩ | ⟨rfl, -⟩ | ⟨⟨hc, -⟩, -⟩
  · decide
  · decide
  · exact Char.le_trans (by decide) hc

theorem NumberPart.cases_of_next? {p q : NumberPart} {c : Char} (h : p.next? c = some q) :
    '0' ≤ c ∧ c ≤ '9' ∨ c ∈ ['.', 'e', 'E', '+', '-'] := by
  have hzero : c = '0' → c ≤ '9' := fun h => h ▸ by decide
  cases p
  all_goals
    simp only [next?] at h
    grind

theorem NumberPart.blank_le_of_next? {p q : NumberPart} {c : Char} (h : p.next? c = some q) :
    ' ' ≤ c := by
  rcases cases_of_next? h with ⟨hc, -⟩ | hc
  · exact Char.le_trans (by decide) hc
  · have hall : ['.', 'e', 'E', '+', '-'].all (' ' ≤ ·) = true := by decide
    exact of_decide_eq_true (List.all_eq_true.1 hall c hc)

theorem NumberPart.noControls_of_after? {p q : NumberPart} (h : p.after? a = some q) :
    NoControls a := by
  induction a generalizing p with
  | nil => exact List.forall_mem_nil _
  | cons x a ih =>
    rw [NumberPart.after?, List.foldlM_cons] at h
    obtain ⟨r, hr, h⟩ := Option.bind_eq_some_iff.1 h
    exact noControls_cons.2 ⟨blank_le_of_next? hr, ih h⟩

theorem IsNumeral.noControls (h : IsNumeral a) : NoControls a := by
  cases h with
  | intro hfirst hrest _ =>
    exact noControls_cons.2 ⟨NumberPart.blank_le_of_first? hfirst,
      NumberPart.noControls_of_after? hrest⟩

theorem noControls_itemsTail {items : List Value} (h : ∀ v ∈ items, NoControls v.render) :
    NoControls (itemsTail items) := by
  refine noControls_append.2 ⟨noControls_flatMap.2 fun v hv => ?_, by decide⟩
  exact noControls_cons.2 ⟨by decide, h v hv⟩

theorem noControls_memberText {m : Bytes × Value} (hk : IsText m.1) (h : NoControls m.2.render) :
    NoControls (memberText m) := by
  rw [memberText, noControls_cons, noControls_append, noControls_cons, noControls_cons]
  exact ⟨by decide, hk.noControls, by decide, by decide, h⟩

theorem noControls_membersTail {members : List (Bytes × Value)} (hk : ∀ m ∈ members, IsText m.1)
    (h : ∀ m ∈ members, NoControls m.2.render) : NoControls (membersTail members) := by
  refine noControls_append.2 ⟨noControls_flatMap.2 fun m hm => ?_, by decide⟩
  exact noControls_cons.2 ⟨by decide, noControls_memberText (hk m hm) (h m hm)⟩

theorem Value.Written.noControls {d : Nat} {v : Value} (h : v.Written d) :
    NoControls v.render := by
  induction h with
  | null => decide
  | bool b => cases b <;> decide
  | number h _ =>
    rw [render_number]
    exact h.noControls
  | string h =>
    rw [render_string, noControls_cons, noControls_append]
    exact ⟨by decide, h.noControls, by decide⟩
  | @array d items _ ih =>
    cases items with
    | nil => decide
    | cons v items =>
      rw [render_array_cons, noControls_cons, noControls_append]
      exact ⟨by decide, ih v List.mem_cons_self,
        noControls_itemsTail fun w hw => ih w (List.mem_cons_of_mem _ hw)⟩
  | @object d members hk _ ih =>
    cases members with
    | nil => decide
    | cons m members =>
      rw [render_object_cons, noControls_cons, noControls_append]
      exact ⟨by decide, noControls_memberText (hk m List.mem_cons_self) (ih m List.mem_cons_self),
        noControls_membersTail (fun n hn => hk n (List.mem_cons_of_mem _ hn))
          fun n hn => ih n (List.mem_cons_of_mem _ hn)⟩

end DeviceGateway.Json
