import DeviceGateway.Json.Record
import DeviceGateway.Proofs.Json.Digits
import DeviceGateway.Proofs.Json.Escaping

/-!
# What is written is read back

A value is written when its numbers are numerals in the range of doubles, its texts can be read, and
it nests no deeper than a given depth. The reader, started on the compact text of such a value,
comes to the end of it with that value, provided there is room for its depth.
-/

namespace DeviceGateway.Json

structure IsText (raw : Bytes) : Prop where
  inside : IsInside raw
  legible : (textOf? raw).isSome = true

/-- Written and nested at most `depth` deep. -/
inductive Value.Written : (depth : Nat) → Value → Prop
  | null {d : Nat} : Written d .null
  | bool {d : Nat} (b : Bool) : Written d (.bool b)
  | number {d : Nat} {raw : Bytes} (h : IsNumeral raw) (hf : isFiniteNumber raw = true) :
      Written d (.number raw)
  | string {d : Nat} {raw : Bytes} (h : IsText raw) : Written d (.string raw)
  | array {d : Nat} {items : List Value} (h : ∀ v ∈ items, Written d v) :
      Written (d + 1) (.array items)
  | object {d : Nat} {members : List (Bytes × Value)} (hk : ∀ m ∈ members, IsText m.1)
      (h : ∀ m ∈ members, Written d m.2) : Written (d + 1) (.object members)

theorem isText_escape (s : String) : IsText (Text.utf8 (String.ofList (escape s.toList))) :=
  ⟨isInside_escape _, by rw [textOf?_escape]; rfl⟩

namespace Value

theorem Written.mono {d d' : Nat} {v : Value} (h : v.Written d) (hle : d ≤ d') : v.Written d' := by
  induction h generalizing d' with
  | null => exact .null
  | bool b => exact .bool b
  | number h hf => exact .number h hf
  | string h => exact .string h
  | array h ih =>
    obtain ⟨k, rfl⟩ : ∃ k, d' = k + 1 := ⟨d' - 1, by omega⟩
    exact .array fun v hv => ih v hv (by omega)
  | object hk h ih =>
    obtain ⟨k, rfl⟩ : ∃ k, d' = k + 1 := ⟨d' - 1, by omega⟩
    exact .object hk fun m hm => ih m hm (by omega)

theorem written_ofText (s : String) : (Value.ofText s).Written 0 := .string (isText_escape s)

theorem written_ofNat {n : Nat} (h : n < UInt64.size) : (Value.ofNat n).Written 0 :=
  .number (isNumeral_digits n) (isFiniteNumber_digits h)

end Value

theorem areSound_of_forall {items : List Value} (h : ∀ v ∈ items, v.isSound = true) :
    areSound items = true := by
  induction items with
  | nil => rfl
  | cons v items ih =>
    rw [areSound, h v List.mem_cons_self, ih fun w hw => h w (List.mem_cons_of_mem _ hw)]
    rfl

theorem areSoundMembers_of_forall {members : List (Bytes × Value)}
    (hk : ∀ m ∈ members, IsText m.1) (h : ∀ m ∈ members, m.2.isSound = true) :
    areSoundMembers members = true := by
  induction members with
  | nil => rfl
  | cons m members ih =>
    rw [areSoundMembers, (hk m List.mem_cons_self).legible, h m List.mem_cons_self,
      ih (fun m hm => hk m (List.mem_cons_of_mem _ hm)) fun m hm => h m (List.mem_cons_of_mem _ hm)]
    rfl

theorem Value.Written.isSound {d : Nat} {v : Value} (h : v.Written d) : v.isSound = true := by
  induction h with
  | null => rfl
  | bool b => rfl
  | number h hf => exact hf
  | string h => exact h.legible
  | array h ih => exact areSound_of_forall ih
  | object hk h ih => exact areSoundMembers_of_forall hk ih

def itemsTail (items : List Value) : Bytes := items.flatMap (fun v => 0x2C :: v.render) ++ [0x5D]

def memberText (m : Bytes × Value) : Bytes := 0x22 :: (m.1 ++ 0x22 :: 0x3A :: m.2.render)

def membersTail (members : List (Bytes × Value)) : Bytes :=
  members.flatMap (fun m => 0x2C :: memberText m) ++ [0x7D]

theorem pushItems_cons (out : Bytes) (v : Value) (items : List Value) :
    pushItems out (v :: items) = (v.render ++ itemsTail items).reverse ++ out := by
  induction items generalizing out v with
  | nil => simp [pushItems, itemsTail, Value.push_eq_render]
  | cons w items ih =>
    rw [pushItems, ih, Value.push_eq_render]
    simp [itemsTail]

theorem pushMember (out : Bytes) (m : Bytes × Value) :
    m.2.push (0x3A :: pushQuoted out m.1) = (memberText m).reverse ++ out := by
  rw [Value.push_eq_render]
  simp [memberText, pushQuoted]

theorem pushMembers_cons (out : Bytes) (m : Bytes × Value) (members : List (Bytes × Value)) :
    pushMembers out (m :: members) = (memberText m ++ membersTail members).reverse ++ out := by
  induction members generalizing out m with
  | nil =>
    rw [pushMembers, pushMember]
    simp [membersTail]
  | cons m' members ih =>
    rw [pushMembers, ih, pushMember]
    simp [membersTail]

theorem render_array_cons (v : Value) (items : List Value) :
    (Value.array (v :: items)).render = 0x5B :: (v.render ++ itemsTail items) := by
  simp [Value.render, Value.push, pushItems_cons]

theorem render_object_cons (m : Bytes × Value) (members : List (Bytes × Value)) :
    (Value.object (m :: members)).render = 0x7B :: (memberText m ++ membersTail members) := by
  simp [Value.render, Value.push, pushMembers_cons]

theorem render_string (raw : Bytes) : (Value.string raw).render = 0x22 :: (raw ++ [0x22]) := by
  simp [Value.render, Value.push, pushQuoted]

theorem render_number (raw : Bytes) : (Value.number raw).render = raw := by
  simp [Value.render, Value.push]

variable {limit : Option Nat} {outer : List Frame}

theorem State.run?_cons (s : State) (b : UInt8) (rest : Bytes) :
    s.run? limit (b :: rest) = (s.next? limit b).bind (·.run? limit rest) := by
  simp only [run?, List.foldlM_cons]
  rfl

theorem run?_step {s t : State} {b : UInt8} (h : s.next? limit b = some t) (rest : Bytes) :
    s.run? limit (b :: rest) = t.run? limit rest := by
  rw [State.run?_cons, h, Option.bind_some]

theorem next?_text (outer : List Frame) {part part' : TextPart} {soFar : Bytes} {b : UInt8}
    (h : part.goOn? (Char.ofUInt8 b) = some part') :
    State.next? limit ⟨.text part soFar, outer⟩ b = some ⟨.text part' (b :: soFar), outer⟩ := by
  simp only [TextPart.goOn?] at h
  split at h
  · cases h
  · rename_i hquote
    simp only [State.next?, h, Option.map_some]

theorem next?_keyText (outer : List Frame) (done : List (Bytes × Value)) {part part' : TextPart}
    {soFar : Bytes} {b : UInt8} (h : part.goOn? (Char.ofUInt8 b) = some part') :
    State.next? limit ⟨.keyText done part soFar, outer⟩ b =
      some ⟨.keyText done part' (b :: soFar), outer⟩ := by
  simp only [TextPart.goOn?] at h
  split at h
  · cases h
  · rename_i hquote
    simp only [State.next?, h, Option.map_some]

theorem run?_inside {mode : TextPart → Bytes → Mode}
    (hmode : ∀ {part part' soFar b}, part.goOn? (Char.ofUInt8 b) = some part' →
      State.next? limit ⟨mode part soFar, outer⟩ b = some ⟨mode part' (b :: soFar), outer⟩)
    {raw : Bytes} {part part' : TextPart} (h : part.after? raw = some part') (soFar : Bytes) :
    State.run? limit ⟨mode part soFar, outer⟩ raw =
      some ⟨mode part' (raw.reverse ++ soFar), outer⟩ := by
  induction raw generalizing part soFar with
  | nil =>
    cases h
    rfl
  | cons b raw ih =>
    rw [TextPart.after?, List.foldlM_cons] at h
    obtain ⟨next, hnext, h⟩ := Option.bind_eq_some_iff.1 h
    rw [run?_step (hmode hnext), ih h]
    simp

theorem run?_number {raw : Bytes} {p q : NumberPart} (h : p.after? raw = some q) (soFar : Bytes) :
    State.run? limit ⟨.number p soFar, outer⟩ raw =
      some ⟨.number q (raw.reverse ++ soFar), outer⟩ := by
  induction raw generalizing p soFar with
  | nil =>
    cases h
    rfl
  | cons b raw ih =>
    rw [NumberPart.after?, List.foldlM_cons] at h
    obtain ⟨next, hnext, h⟩ := Option.bind_eq_some_iff.1 h
    have hstep : State.next? limit ⟨.number p soFar, outer⟩ b =
        some ⟨.number next (b :: soFar), outer⟩ := by
      simp only [State.next?, hnext]
    rw [run?_step hstep, ih h]
    simp

theorem run?_text {raw : Bytes} (h : IsInside raw) :
    State.run? limit ⟨.text .plain [], outer⟩ (raw ++ [0x22]) =
      some (deliver (.string raw) outer) := by
  have hquote (soFar : Bytes) : State.next? limit ⟨.text .plain soFar, outer⟩ 0x22 =
      some (deliver (.string soFar.reverse) outer) := rfl
  rw [State.run?_append, run?_inside (next?_text outer) h, Option.bind_some, run?_step (hquote _)]
  simp [State.run?]

theorem run?_key {raw : Bytes} (h : IsInside raw) (done : List (Bytes × Value)) (rest : Bytes) :
    State.run? limit ⟨.keyText done .plain [], outer⟩ (raw ++ 0x22 :: 0x3A :: rest) =
      State.run? limit ⟨.value, .object done raw :: outer⟩ rest := by
  have hquote (soFar : Bytes) : State.next? limit ⟨.keyText done .plain soFar, outer⟩ 0x22 =
      some ⟨.colon done soFar.reverse, outer⟩ := rfl
  have hcolon (key : Bytes) : State.next? limit ⟨.colon done key, outer⟩ 0x3A =
      some ⟨.value, .object done key :: outer⟩ := rfl
  rw [State.run?_append, run?_inside (next?_keyText outer done) h, Option.bind_some,
    run?_step (hquote _), run?_step (hcolon _)]
  simp

inductive Awaits : Value → List Frame → State → Prop
  | delivered (v : Value) (outer : List Frame) : Awaits v outer (deliver v outer)
  | number {p : NumberPart} (h : p.mayEnd = true) (soFar : Bytes) (outer : List Frame) :
      Awaits (.number soFar.reverse) outer ⟨.number p soFar, outer⟩

theorem Awaits.result? {v : Value} {s : State} (h : Awaits v [] s) : s.result? = some v := by
  cases h with
  | delivered v => rfl
  | number hend soFar => simp [State.result?, hend]

def isDelimiter (c : Char) : Bool := c == ',' || c == ']' || c == '\x7d'

theorem next?_eq_none_of_isDelimiter {c : Char} (hc : isDelimiter c = true) (p : NumberPart) :
    p.next? c = none := by
  simp only [isDelimiter, Bool.or_eq_true, beq_iff_eq, or_assoc] at hc
  rcases hc with rfl | rfl | rfl
  all_goals
    cases p <;> rfl

theorem Awaits.next? {v : Value} {s : State} (h : Awaits v outer s) {b : UInt8}
    (hb : isDelimiter (Char.ofUInt8 b) = true) :
    s.next? limit b = between? limit (deliver v outer) b := by
  cases h with
  | delivered v =>
    cases outer with
    | nil => rfl
    | cons frame outer => cases frame <;> rfl
  | @number p hend soFar =>
    simp only [State.next?, next?_eq_none_of_isDelimiter hb, hend, if_true]

def Room (limit : Option Nat) (depth : Nat) : Prop := ∀ n, limit = some n → depth ≤ n

theorem Room.mono {j k : Nat} (h : Room limit k) (hle : j ≤ k) : Room limit j :=
  fun n hn => Nat.le_trans hle (h n hn)

def Reads (limit : Option Nat) (depth : Nat) (v : Value) : Prop :=
  ∀ outer : List Frame, Room limit (outer.length + depth) →
    ∃ s, State.run? limit ⟨.value, outer⟩ v.render = some s ∧ Awaits v outer s

theorem run?_itemsTail {items : List Value} {depth : Nat} (h : ∀ w ∈ items, Reads limit depth w)
    (hroom : Room limit (outer.length + 1 + depth)) {v : Value} {s : State}
    {done : List Value} (hs : Awaits v (.array done :: outer) s) :
    s.run? limit (itemsTail items) =
      some (deliver (.array (done.reverse ++ v :: items)) outer) := by
  -- On the items left. The value before them may be a number, which only the next byte ends.
  induction items generalizing v s done with
  | nil =>
    have hclose : s.next? limit 0x5D = some (deliver (.array (v :: done).reverse) outer) :=
      (hs.next? (b := 0x5D) rfl).trans rfl
    rw [itemsTail, List.flatMap_nil, List.nil_append, run?_step hclose]
    simp [State.run?]
  | cons w items ih =>
    have hcomma : s.next? limit 0x2C = some ⟨.value, .array (v :: done) :: outer⟩ :=
      (hs.next? (b := 0x2C) rfl).trans rfl
    obtain ⟨t, ht, hw⟩ := h w List.mem_cons_self (.array (v :: done) :: outer) hroom
    have htail : itemsTail (w :: items) = 0x2C :: (w.render ++ itemsTail items) := by
      simp [itemsTail]
    rw [htail, run?_step hcomma, State.run?_append, ht, Option.bind_some,
      ih (fun w hw => h w (List.mem_cons_of_mem _ hw)) hw]
    simp

theorem run?_memberText {m : Bytes × Value} {depth : Nat} (hk : IsText m.1)
    (h : Reads limit depth m.2) (hroom : Room limit (outer.length + 1 + depth))
    (done : List (Bytes × Value)) (mayEnd : Bool) :
    ∃ s, State.run? limit ⟨.key done mayEnd, outer⟩ (memberText m) = some s ∧
      Awaits m.2 (.object done m.1 :: outer) s := by
  have hopen : State.next? limit ⟨.key done mayEnd, outer⟩ 0x22 =
      some ⟨.keyText done .plain [], outer⟩ := rfl
  rw [memberText, run?_step hopen, run?_key hk.inside]
  exact h (.object done m.1 :: outer) hroom

theorem run?_membersTail {members : List (Bytes × Value)} {depth : Nat}
    (hk : ∀ m ∈ members, IsText m.1) (h : ∀ m ∈ members, Reads limit depth m.2)
    (hroom : Room limit (outer.length + 1 + depth)) {m : Bytes × Value} {s : State}
    {done : List (Bytes × Value)} (hs : Awaits m.2 (.object done m.1 :: outer) s) :
    s.run? limit (membersTail members) =
      some (deliver (.object (done.reverse ++ m :: members)) outer) := by
  induction members generalizing m s done with
  | nil =>
    have hclose : s.next? limit 0x7D = some (deliver (.object (m :: done).reverse) outer) :=
      (hs.next? (b := 0x7D) rfl).trans rfl
    rw [membersTail, List.flatMap_nil, List.nil_append, run?_step hclose]
    simp [State.run?]
  | cons m' members ih =>
    have hcomma : s.next? limit 0x2C = some ⟨.key (m :: done) false, outer⟩ :=
      (hs.next? (b := 0x2C) rfl).trans rfl
    have hmem : m' ∈ m' :: members := List.mem_cons_self
    obtain ⟨t, ht, hm'⟩ := run?_memberText (hk m' hmem) (h m' hmem) hroom (m :: done) false
    have htail : membersTail (m' :: members) = 0x2C :: (memberText m' ++ membersTail members) := by
      simp [membersTail]
    rw [htail, run?_step hcomma, State.run?_append, ht, Option.bind_some,
      ih (fun m hm => hk m (List.mem_cons_of_mem _ hm))
        (fun m hm => h m (List.mem_cons_of_mem _ hm)) hm']
    simp

def Opens (b : UInt8) : Prop := isSpace (Char.ofUInt8 b) = false ∧ Char.ofUInt8 b ≠ ']'

theorem first?_cases {c : Char} {p : NumberPart} (h : NumberPart.first? c = some p) :
    c = '-' ∧ p = .minus ∨ c = '0' ∧ p = .zero ∨ ('1' ≤ c ∧ c ≤ '9') ∧ p = .whole := by
  simp only [NumberPart.first?] at h
  split at h
  · cases h
    exact .inl ⟨‹_›, rfl⟩
  · split at h
    · cases h
      exact .inr (.inl ⟨‹_›, rfl⟩)
    · split at h
      · cases h
        exact .inr (.inr ⟨‹_›, rfl⟩)
      · cases h

theorem ne_of_outside {c : Char} (hc : '1' ≤ c ∧ c ≤ '9') (x : Char)
    (hx : ¬('1' ≤ x ∧ x ≤ '9') := by decide) : c ≠ x :=
  fun h => hx (h ▸ hc)

theorem opens_of_first? {b : UInt8} {p : NumberPart}
    (h : NumberPart.first? (Char.ofUInt8 b) = some p) : Opens b := by
  rcases first?_cases h with ⟨hc, -⟩ | ⟨hc, -⟩ | ⟨hc, -⟩
  · rw [Opens, hc]
    decide
  · rw [Opens, hc]
    decide
  · refine ⟨?_, ne_of_outside hc ']'⟩
    simp [isSpace, ne_of_outside hc ' ', ne_of_outside hc '\t', ne_of_outside hc '\n',
      ne_of_outside hc '\r']

theorem Value.Written.render_head {d : Nat} {v : Value} (h : v.Written d) :
    ∃ b rest, v.render = b :: rest ∧ Opens b := by
  cases h with
  | null => exact ⟨_, _, rfl, by decide, by decide⟩
  | bool b => cases b <;> exact ⟨_, _, rfl, by decide, by decide⟩
  | number h hf =>
    cases h with
    | intro hfirst => exact ⟨_, _, render_number _, opens_of_first? hfirst⟩
  | string h => exact ⟨_, _, render_string _, by decide, by decide⟩
  | @array d items h =>
    cases items with
    | nil => exact ⟨_, _, rfl, by decide, by decide⟩
    | cons v items => exact ⟨_, _, render_array_cons v items, by decide, by decide⟩
  | @object d members hk h =>
    cases members with
    | nil => exact ⟨_, _, rfl, by decide, by decide⟩
    | cons m members => exact ⟨_, _, render_object_cons m members, by decide, by decide⟩

theorem next?_firstItem {b : UInt8} (h : Opens b) :
    State.next? limit ⟨.firstItem, outer⟩ b = State.next? limit ⟨.value, .array [] :: outer⟩ b := by
  simp only [State.next?, between?, h.1, Bool.false_eq_true, if_false, if_neg h.2]

theorem next?_value {b : UInt8} (h : Opens b) :
    State.next? limit ⟨.value, outer⟩ b = begin? limit outer b := by
  simp only [State.next?, between?, h.1, Bool.false_eq_true, if_false]

theorem next?_number {b : UInt8} {p : NumberPart}
    (h : NumberPart.first? (Char.ofUInt8 b) = some p) :
    State.next? limit ⟨.value, outer⟩ b = some ⟨.number p [b], outer⟩ := by
  rw [next?_value (opens_of_first? h)]
  rcases first?_cases h with ⟨hc, rfl⟩ | ⟨hc, rfl⟩ | ⟨hc, rfl⟩
  · simp [begin?, hc]
  · simp [begin?, hc]
  · simp [begin?, hc, ne_of_outside hc '"', ne_of_outside hc '[', ne_of_outside hc '\x7b',
      ne_of_outside hc 'n', ne_of_outside hc 't', ne_of_outside hc 'f', ne_of_outside hc '-',
      ne_of_outside hc '0']

theorem next?_bracket (hroom : Room limit (outer.length + 1)) :
    State.next? limit ⟨.value, outer⟩ 0x5B = some ⟨.firstItem, outer⟩ := by
  cases limit with
  | none => rfl
  | some n => exact if_pos (hroom n rfl)

theorem next?_brace (hroom : Room limit (outer.length + 1)) :
    State.next? limit ⟨.value, outer⟩ 0x7B = some ⟨.key [] true, outer⟩ := by
  cases limit with
  | none => rfl
  | some n => exact if_pos (hroom n rfl)

theorem Value.Written.reads {d : Nat} {v : Value} (h : v.Written d) (limit : Option Nat) :
    Reads limit d v := by
  induction h with
  | null => exact fun outer _ => ⟨_, rfl, .delivered _ _⟩
  | bool b =>
    intro outer _
    cases b
    · exact ⟨_, rfl, .delivered _ _⟩
    · exact ⟨_, rfl, .delivered _ _⟩
  | @number d raw h hf =>
    intro outer _
    rw [render_number]
    cases h with
    | @intro b rest p q hfirst hrest hend =>
      refine ⟨_, (run?_step (next?_number hfirst) _).trans (run?_number hrest _), ?_⟩
      simpa using Awaits.number hend (rest.reverse ++ [b]) outer
  | string h =>
    intro outer _
    rw [render_string]
    exact ⟨_, (run?_step rfl _).trans (run?_text h.inside), .delivered _ _⟩
  | @array d items h ih =>
    intro outer hroom
    have hone : Room limit (outer.length + 1) := hroom.mono (by omega)
    have hnested : Room limit (outer.length + 1 + d) := hroom.mono (by omega)
    refine ⟨deliver (.array items) outer, ?_, .delivered _ _⟩
    cases items with
    | nil => exact run?_step (next?_bracket hone) [0x5D]
    | cons v items =>
      obtain ⟨b, rest, hrender, hopens⟩ := (h v List.mem_cons_self).render_head
      obtain ⟨s, hs, hv⟩ := ih v List.mem_cons_self (.array [] :: outer) hnested
      -- The array may still end here, but no value starts with the bracket that ends it.
      have hfirst : State.run? limit ⟨.firstItem, outer⟩ v.render = some s := by
        rw [← hs, hrender, State.run?_cons, State.run?_cons, next?_firstItem hopens]
      rw [render_array_cons, run?_step (next?_bracket hone), State.run?_append, hfirst,
        Option.bind_some,
        run?_itemsTail (fun w hw => ih w (List.mem_cons_of_mem _ hw)) hnested hv]
      rfl
  | @object d members hk h ih =>
    intro outer hroom
    have hone : Room limit (outer.length + 1) := hroom.mono (by omega)
    have hnested : Room limit (outer.length + 1 + d) := hroom.mono (by omega)
    refine ⟨deliver (.object members) outer, ?_, .delivered _ _⟩
    cases members with
    | nil => exact run?_step (next?_brace hone) [0x7D]
    | cons m members =>
      have hmem : m ∈ m :: members := List.mem_cons_self
      obtain ⟨s, hs, hm⟩ := run?_memberText (hk m hmem) (ih m hmem) hnested [] true
      rw [render_object_cons, run?_step (next?_brace hone), State.run?_append, hs,
        Option.bind_some,
        run?_membersTail (fun m hm => hk m (List.mem_cons_of_mem _ hm))
          (fun m hm => ih m (List.mem_cons_of_mem _ hm)) hnested hm]
      rfl

theorem read_render {d : Nat} {v : Value} (h : v.Written d) {limit : Option Nat}
    (hroom : Room limit d) : read limit v.render = some v := by
  obtain ⟨s, hs, hv⟩ := h.reads limit [] (by simpa using hroom)
  rw [read, State.start, hs, Option.bind_some, hv.result?]

end DeviceGateway.Json
