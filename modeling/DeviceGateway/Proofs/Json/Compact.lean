import DeviceGateway.Proofs.Json.Reading

/-!
# What is read is the frame without its blanks

The reader keeps the bytes of texts and numbers and passes over blanks between the parts of a value
alone. So the compact text of a value that was read is the frame without these blanks, and no frame
is shorter than the compact text of its value. The texts and numbers it keeps are well formed.
-/

namespace DeviceGateway.Json

/-- The bytes `t` are the bytes `s` without some of the blanks in them. -/
inductive Squeezes : (t s : Bytes) → Prop
  | nil : Squeezes [] []
  | keep {t s : Bytes} (b : UInt8) (h : Squeezes t s) : Squeezes (b :: t) (b :: s)
  | drop {b : UInt8} {t s : Bytes} (hb : isSpace (Char.ofUInt8 b) = true) (h : Squeezes t s) :
      Squeezes t (b :: s)

def OpensWith (b : UInt8) (s : Bytes) : Prop :=
  ∃ blanks rest, s = blanks ++ b :: rest ∧ ∀ x ∈ blanks, isSpace (Char.ofUInt8 x) = true

section
variable {t s : Bytes} {b : UInt8}

theorem Squeezes.length_le (h : Squeezes t s) : t.length ≤ s.length := by
  induction h with
  | nil => exact Nat.le_refl _
  | keep b h ih => exact Nat.succ_le_succ ih
  | drop hb h ih => exact Nat.le_succ_of_le ih

theorem Squeezes.opensWith (h : Squeezes (b :: t) s) : OpensWith b s := by
  generalize htext : b :: t = text at h
  induction h with
  | nil => cases htext
  | keep b h ih =>
    cases htext
    exact ⟨[], _, rfl, fun _ hx => absurd hx List.not_mem_nil⟩
  | drop hb h ih =>
    obtain ⟨blanks, rest, rfl, hblanks⟩ := ih htext
    exact ⟨_ :: blanks, rest, rfl, List.forall_mem_cons.2 ⟨hb, hblanks⟩⟩

theorem eq_of_ofUInt8_eq {c : Char} (h : Char.ofUInt8 b = c) : b = c.toUInt8 := by
  subst h
  apply UInt8.toNat_inj.1
  exact (Nat.mod_eq_of_lt b.toNat_lt).symm

end

inductive Value.Formed : Value → Prop
  | null : Formed .null
  | bool (b : Bool) : Formed (.bool b)
  | number {raw : Bytes} (h : IsNumeral raw) : Formed (.number raw)
  | string {raw : Bytes} (h : IsInside raw) : Formed (.string raw)
  | array {items : List Value} (h : ∀ v ∈ items, Formed v) : Formed (.array items)
  | object {members : List (Bytes × Value)} (hk : ∀ m ∈ members, IsInside m.1)
      (h : ∀ m ∈ members, Formed m.2) : Formed (.object members)

structure FormedMembers (members : List (Bytes × Value)) : Prop where
  keys : ∀ m ∈ members, IsInside m.1
  values : ∀ m ∈ members, m.2.Formed

def Frame.Formed : Frame → Prop
  | .array done => ∀ v ∈ done, v.Formed
  | .object done key => FormedMembers done ∧ IsInside key

def NumberPart.LedBy (part : NumberPart) (raw : Bytes) : Prop :=
  ∃ b rest p, raw = b :: rest ∧ first? (Char.ofUInt8 b) = some p ∧ p.after? rest = some part

section
variable {raw : Bytes} {b : UInt8}

theorem formedMembers_nil : FormedMembers [] :=
  ⟨fun _ h => absurd h List.not_mem_nil, fun _ h => absurd h List.not_mem_nil⟩

theorem FormedMembers.cons {key : Bytes} {v : Value} {members : List (Bytes × Value)}
    (h : FormedMembers members) (hkey : IsInside key) (hv : v.Formed) :
    FormedMembers ((key, v) :: members) :=
  ⟨List.forall_mem_cons.2 ⟨hkey, h.keys⟩, List.forall_mem_cons.2 ⟨hv, h.values⟩⟩

theorem FormedMembers.object {members : List (Bytes × Value)} (h : FormedMembers members) :
    (Value.object members.reverse).Formed :=
  .object (fun m hm => h.keys m (List.mem_reverse.1 hm))
    fun m hm => h.values m (List.mem_reverse.1 hm)

theorem TextPart.after?_snoc {part part' : TextPart} (h : plain.after? raw.reverse = some part)
    (hnext : part.goOn? (Char.ofUInt8 b) = some part') :
    plain.after? (b :: raw).reverse = some part' := by
  rw [List.reverse_cons, after?_append, h, Option.bind_some, after?, List.foldlM_cons, hnext]
  rfl

theorem NumberPart.LedBy.snoc {part part' : NumberPart} (h : part.LedBy raw.reverse)
    (hnext : part.next? (Char.ofUInt8 b) = some part') : part'.LedBy (b :: raw).reverse := by
  obtain ⟨x, rest, p, hraw, hfirst, hrest⟩ := h
  refine ⟨x, rest ++ [b], p, by rw [List.reverse_cons, hraw, List.cons_append], hfirst, ?_⟩
  rw [after?] at hrest ⊢
  rw [List.foldlM_append, hrest]
  simp [hnext]

theorem NumberPart.LedBy.isNumeral {part : NumberPart} (h : part.LedBy raw)
    (hend : part.mayEnd = true) : IsNumeral raw := by
  obtain ⟨b, rest, p, rfl, hfirst, hrest⟩ := h
  exact .intro hfirst hrest hend

end

def beforeItem (out : Bytes) : List Value → Bytes
  | [] => 0x5B :: out
  | v :: done => 0x2C :: v.push (beforeItem out done)

def beforeMember (out : Bytes) : List (Bytes × Value) → Bytes
  | [] => 0x7B :: out
  | (key, v) :: done => 0x2C :: v.push (0x3A :: pushQuoted (beforeMember out done) key)

def beforeValue : List Frame → Bytes
  | [] => []
  | .array done :: outer => beforeItem (beforeValue outer) done
  | .object done key :: outer => 0x3A :: pushQuoted (beforeMember (beforeValue outer) done) key

theorem pushItems_beforeItem (out : Bytes) (done : List Value) (v : Value) (items : List Value) :
    pushItems (beforeItem out done) (v :: items) =
      pushItems (0x5B :: out) (done.reverse ++ v :: items) := by
  induction done generalizing v items with
  | nil => rfl
  | cons w done ih =>
    rw [List.reverse_cons, List.append_assoc, List.singleton_append, ← ih]
    rfl

theorem pushMembers_beforeMember (out : Bytes) (done : List (Bytes × Value)) (m : Bytes × Value)
    (members : List (Bytes × Value)) :
    pushMembers (beforeMember out done) (m :: members) =
      pushMembers (0x7B :: out) (done.reverse ++ m :: members) := by
  induction done generalizing m members with
  | nil => rfl
  | cons w done ih =>
    rw [List.reverse_cons, List.append_assoc, List.singleton_append, ← ih]
    rfl

theorem push_array (out : Bytes) (done : List Value) (v : Value) :
    (Value.array (v :: done).reverse).push out = 0x5D :: v.push (beforeItem out done) := by
  rw [List.reverse_cons, Value.push, ← pushItems_beforeItem]
  rfl

theorem push_object (out key : Bytes) (done : List (Bytes × Value)) (v : Value) :
    (Value.object ((key, v) :: done).reverse).push out =
      0x7D :: v.push (0x3A :: pushQuoted (beforeMember out done) key) := by
  rw [List.reverse_cons, Value.push, ← pushMembers_beforeMember]
  rfl

/-- The reader has come to this state by reading `t`, and what it keeps is well formed. -/
def State.Holds (s : State) (t : Bytes) : Prop :=
  let out := beforeValue s.outer
  (∀ f ∈ s.outer, f.Formed) ∧
  match s.mode with
  | .value => t = out
  | .firstItem => t = 0x5B :: out
  | .afterItem done => (∀ v ∈ done, v.Formed) ∧
      ∃ v rest, done = v :: rest ∧ t = v.push (beforeItem out rest)
  | .key done mayEnd => FormedMembers done ∧ (mayEnd = true → done = []) ∧
      t = beforeMember out done
  | .keyText done part soFar => FormedMembers done ∧
      TextPart.plain.after? soFar.reverse = some part ∧ t = soFar ++ 0x22 :: beforeMember out done
  | .colon done key => FormedMembers done ∧ IsInside key ∧
      t = pushQuoted (beforeMember out done) key
  | .afterMember done => FormedMembers done ∧ ∃ key v rest, done = (key, v) :: rest ∧
      t = v.push (0x3A :: pushQuoted (beforeMember out rest) key)
  | .text part soFar => TextPart.plain.after? soFar.reverse = some part ∧ t = soFar ++ 0x22 :: out
  | .number part soFar => part.LedBy soFar.reverse ∧ t = soFar ++ out
  | .word rest meaning => meaning.Formed ∧ meaning.push out = rest.reverse ++ t
  | .done v => v.Formed ∧ t = v.push []

variable {limit : Option Nat} {outer : List Frame} {s s' : State} {t : Bytes} {b : UInt8}

theorem holds_deliver {v : Value} (hv : v.Formed) (houter : ∀ f ∈ outer, f.Formed) :
    (deliver v outer).Holds (v.push (beforeValue outer)) := by
  cases outer with
  | nil => exact ⟨houter, hv, rfl⟩
  | cons frame outer =>
    obtain ⟨hframe, hrest⟩ := List.forall_mem_cons.1 houter
    cases frame with
    | array done => exact ⟨hrest, List.forall_mem_cons.2 ⟨hv, hframe⟩, v, done, rfl, rfl⟩
    | object done key =>
      obtain ⟨hdone, hkey⟩ := hframe
      exact ⟨hrest, hdone.cons hkey hv, key, v, done, rfl, rfl⟩

theorem holds_number {p : NumberPart} (hfirst : NumberPart.first? (Char.ofUInt8 b) = some p)
    (houter : ∀ f ∈ outer, f.Formed) :
    State.Holds ⟨.number p [b], outer⟩ (b :: beforeValue outer) :=
  ⟨houter, ⟨b, [], p, rfl, hfirst, rfl⟩, rfl⟩

theorem eq_of_opened {m : Mode} (h : (match limit with
    | some n => if outer.length < n then some (State.mk m outer) else none
    | none => some ⟨m, outer⟩) = some s') : s' = ⟨m, outer⟩ := by
  split at h
  · split at h <;> cases h
    rfl
  · cases h
    rfl

theorem holds_begin? (h : begin? limit outer b = some s') (houter : ∀ f ∈ outer, f.Formed) :
    s'.Holds (b :: beforeValue outer) := by
  simp only [begin?] at h
  split at h
  · rename_i hc
    cases h
    exact ⟨houter, rfl, by rw [eq_of_ofUInt8_eq hc]; rfl⟩
  split at h
  · rename_i hc
    obtain rfl := eq_of_opened h
    exact ⟨houter, by rw [eq_of_ofUInt8_eq hc]; rfl⟩
  split at h
  · rename_i hc
    obtain rfl := eq_of_opened h
    exact ⟨houter, formedMembers_nil, fun _ => rfl, by rw [eq_of_ofUInt8_eq hc]; rfl⟩
  split at h
  · rename_i hc
    cases h
    exact ⟨houter, .null, by rw [eq_of_ofUInt8_eq hc]; rfl⟩
  split at h
  · rename_i hc
    cases h
    exact ⟨houter, .bool true, by rw [eq_of_ofUInt8_eq hc]; rfl⟩
  split at h
  · rename_i hc
    cases h
    exact ⟨houter, .bool false, by rw [eq_of_ofUInt8_eq hc]; rfl⟩
  split at h
  · rename_i hminus
    cases h
    exact holds_number (if_pos hminus) houter
  rename_i hminus
  split at h
  · rename_i hzero
    cases h
    exact holds_number ((if_neg hminus).trans (if_pos hzero)) houter
  rename_i hzero
  split at h
  · rename_i hdigit
    cases h
    exact holds_number ((if_neg hminus).trans ((if_neg hzero).trans (if_pos hdigit))) houter
  · cases h

def Goes (s' : State) (b : UInt8) (t : Bytes) : Prop :=
  s'.Holds (b :: t) ∨ isSpace (Char.ofUInt8 b) = true ∧ s'.Holds t

theorem goes_between? (h : between? limit s b = some s') (hs : s.Holds t) : Goes s' b t := by
  obtain ⟨mode, outer⟩ := s
  simp only [between?] at h
  split at h
  · rename_i hspace
    cases h
    exact .inr ⟨hspace, hs⟩
  left
  obtain ⟨houter, hs⟩ := hs
  cases mode with
  | value =>
    obtain rfl : t = _ := hs
    exact holds_begin? h houter
  | firstItem =>
    obtain rfl : t = _ := hs
    dsimp only at h
    split at h
    · rename_i hc
      cases h
      rw [eq_of_ofUInt8_eq hc]
      exact holds_deliver (.array fun _ hv => absurd hv List.not_mem_nil) houter
    · refine holds_begin? h (List.forall_mem_cons.2 ⟨?_, houter⟩)
      exact fun _ hv => absurd hv List.not_mem_nil
  | afterItem done =>
    obtain ⟨hdone, v, rest, rfl, rfl⟩ := hs
    dsimp only at h
    split at h
    · rename_i hc
      cases h
      exact ⟨List.forall_mem_cons.2 ⟨hdone, houter⟩, by rw [eq_of_ofUInt8_eq hc]; rfl⟩
    split at h
    · rename_i hc
      cases h
      have hitems : ∀ w ∈ (v :: rest).reverse, w.Formed :=
        fun w hw => hdone w (List.mem_reverse.1 hw)
      rw [eq_of_ofUInt8_eq hc]
      exact push_array _ rest v ▸ holds_deliver (.array hitems) houter
    · cases h
  | key done mayEnd =>
    obtain ⟨hdone, hend, rfl⟩ := hs
    dsimp only at h
    split at h
    · rename_i hc
      cases h
      exact ⟨houter, hdone, rfl, by rw [eq_of_ofUInt8_eq hc]; rfl⟩
    split at h
    · rename_i hc
      rw [Bool.and_eq_true, decide_eq_true_eq] at hc
      obtain rfl := hend hc.2
      cases h
      rw [eq_of_ofUInt8_eq hc.1]
      exact holds_deliver hdone.object houter
    · cases h
  | colon done key =>
    obtain ⟨hdone, hkey, rfl⟩ := hs
    dsimp only at h
    split at h
    · rename_i hc
      cases h
      exact ⟨List.forall_mem_cons.2 ⟨⟨hdone, hkey⟩, houter⟩, by rw [eq_of_ofUInt8_eq hc]; rfl⟩
    · cases h
  | afterMember done =>
    obtain ⟨hdone, key, v, rest, rfl, rfl⟩ := hs
    dsimp only at h
    split at h
    · rename_i hc
      cases h
      exact ⟨houter, hdone, Bool.noConfusion, by rw [eq_of_ofUInt8_eq hc]; rfl⟩
    split at h
    · rename_i hc
      cases h
      rw [eq_of_ofUInt8_eq hc]
      exact push_object _ key rest v ▸ holds_deliver hdone.object houter
    · cases h
  | _ => cases h

theorem goOn?_eq_next? {part : TextPart} {c : Char} (h : part = .plain → c = '"' → False) :
    part.goOn? c = part.next? c := by
  rw [TextPart.goOn?]
  exact h

theorem goes_next? (h : s.next? limit b = some s') (hs : s.Holds t) : Goes s' b t := by
  obtain ⟨mode, outer⟩ := s
  cases mode with
  | text part soFar =>
    obtain ⟨houter, hpart, rfl⟩ := hs
    left
    simp only [State.next?] at h
    split at h
    · rename_i hc
      obtain rfl : b = 0x22 := eq_of_ofUInt8_eq hc
      cases h
      simpa [Value.push, pushQuoted] using holds_deliver (.string hpart) houter
    · rename_i hquote
      obtain ⟨part', hnext, rfl⟩ := Option.map_eq_some_iff.1 h
      exact ⟨houter, TextPart.after?_snoc hpart ((goOn?_eq_next? hquote).trans hnext), rfl⟩
  | keyText done part soFar =>
    obtain ⟨houter, hdone, hpart, rfl⟩ := hs
    left
    simp only [State.next?] at h
    split at h
    · rename_i hc
      obtain rfl : b = 0x22 := eq_of_ofUInt8_eq hc
      cases h
      exact ⟨houter, hdone, hpart, by simp [pushQuoted]⟩
    · rename_i hquote
      obtain ⟨part', hnext, rfl⟩ := Option.map_eq_some_iff.1 h
      exact ⟨houter, hdone,
        TextPart.after?_snoc hpart ((goOn?_eq_next? hquote).trans hnext), rfl⟩
  | number part soFar =>
    obtain ⟨houter, hpart, rfl⟩ := hs
    simp only [State.next?] at h
    split at h
    · rename_i hnext
      cases h
      exact .inl ⟨houter, hpart.snoc hnext, rfl⟩
    split at h
    · rename_i hend
      refine goes_between? h ?_
      simpa [Value.push] using holds_deliver (.number (hpart.isNumeral hend)) houter
    · cases h
  | word rest meaning =>
    obtain ⟨houter, hmeaning, htext⟩ := hs
    left
    simp only [State.next?] at h
    split at h
    · cases h
    · split at h
      · rename_i x hx
        cases h
        have hdelivered := holds_deliver hmeaning houter
        rwa [htext, hx] at hdelivered
      · cases h
    · split at h
      · rename_i x more _ hx
        cases h
        exact ⟨houter, hmeaning, by simp [htext, hx]⟩
      · cases h
  | _ =>
    refine @goes_between? limit _ _ _ _ ?_ hs
    exact h

theorem exists_squeezes_of_run? {bytes : Bytes} (h : s.run? limit bytes = some s')
    (hs : s.Holds t) : ∃ more, Squeezes more bytes ∧ s'.Holds (more.reverse ++ t) := by
  induction bytes generalizing s t with
  | nil =>
    cases h
    exact ⟨[], .nil, hs⟩
  | cons b bytes ih =>
    rw [State.run?_cons] at h
    obtain ⟨next, hnext, h⟩ := Option.bind_eq_some_iff.1 h
    rcases goes_next? hnext hs with hkeep | ⟨hspace, hdrop⟩
    · obtain ⟨more, hmore, hs'⟩ := ih h hkeep
      refine ⟨b :: more, hmore.keep b, ?_⟩
      rw [List.reverse_cons, List.append_assoc]
      exact hs'
    · obtain ⟨more, hmore, hs'⟩ := ih h hdrop
      exact ⟨more, hmore.drop hspace, hs'⟩

theorem of_result?_eq_some {v : Value} (h : s.result? = some v) (hs : s.Holds t) :
    v.Formed ∧ t = v.push [] := by
  obtain ⟨mode, outer⟩ := s
  simp only [State.result?] at h
  split at h
  · cases h
    exact hs.2
  · split at h
    · rename_i hend
      cases h
      obtain ⟨-, hpart, rfl⟩ := hs
      exact ⟨.number (hpart.isNumeral hend), by simp [Value.push, beforeValue]⟩
    · cases h
  · cases h

theorem squeezes_of_read {bytes : Bytes} {v : Value} (h : read limit bytes = some v) :
    v.Formed ∧ Squeezes v.render bytes := by
  obtain ⟨s, hrun, hresult⟩ := Option.bind_eq_some_iff.1 h
  have hstart : State.start.Holds [] := ⟨fun _ hf => absurd hf List.not_mem_nil, rfl⟩
  obtain ⟨more, hmore, hs⟩ := exists_squeezes_of_run? hrun hstart
  obtain ⟨hformed, htext⟩ := of_result?_eq_some hresult hs
  rw [List.append_nil] at htext
  refine ⟨hformed, ?_⟩
  rwa [Value.render, ← htext, List.reverse_reverse]

end DeviceGateway.Json
