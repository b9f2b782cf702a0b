import DeviceGateway.Proofs.Bus.Posting
import DeviceGateway.Rehearsal.Poll
import DeviceGateway.Rehearsal.Relay

/-!
# The forwarder passes on what it is sent

A forwarder at work on its subscription, while others publish, subscribe and close the bus, while it
is asked to stop, and against receivers that answer, refuse or never answer. It makes one call for
each delivery, in the order of the publishes, and leaves none out before it ends; it ends well only
if it was asked to stop or nobody is left who could ask, and in failure only if the bus gave up its
subscription. Once either has happened it has only so many steps left, and is never kept from the
next one.
-/

namespace DeviceGateway.Forwarder

structure ForwarderRun where
  bus : Bus
  state : State := .waiting
  stopping : Bool := false

inductive Occurrence
  | posted (d : Delivery)
  | emptied
  | elsewhere
  | stopRequested
  | controllerGone
  | called (topic : String) (message : Message)
  | answered (reply : Except BusError Nat)
  | timedOut
  | returned (result : Except GatewayError Unit)

namespace Occurrence

def isEmptied : Occurrence → Bool
  | .emptied => true
  | _ => false

def meant? (lead : String) : Occurrence → Option Delivery
  | .posted d => if Subject.patternMatches (Topic.allChannels lead) d.subject then some d else none
  | _ => none

def call? : Occurrence → Option (String × Message)
  | .called topic message => some (topic, message)
  | _ => none

def isOwn : Occurrence → Bool
  | .called _ _ | .answered _ | .timedOut | .returned _ => true
  | _ => false

end Occurrence

/-- What others do with a bus while a subscription is in use. -/
inductive Around (id : SubscriptionId) (b : Bus) : Occurrence → Bus → Prop
  | posted (d : Delivery) : Around id b (.posted d) (b.post d)
  | emptied : Around id b .emptied b.forget
  | flagged : Around id b .elsewhere b.flag
  | enrolled (pattern : String) : Around id b .elsewhere (b.enroll pattern).1
  | received {i : SubscriptionId} (hi : i ≠ id) : Around id b .elsewhere (b.receive i).1
  | dropped {i : SubscriptionId} (hi : i ≠ id) : Around id b .elsewhere (b.drop i)

/-- Between deliveries the forwarder takes whichever is there of a stop, a delivery and the end of
its subscription; during a call it waits for the answer or for the time to run out. When it returns
it gives up its subscription. -/
inductive ForwarderRun.Step (id : SubscriptionId) (w : ForwarderRun) :
    Occurrence → ForwarderRun → Prop
  | around {e : Occurrence} {c : Bus} (h : Around id w.bus e c) : Step id w e { w with bus := c }
  | stopRequested : Step id w .stopRequested { w with stopping := true }
  | controllerGone : Step id w .controllerGone { w with stopping := true }
  | heed {r : Except GatewayError Unit} (hw : w.state = .waiting) (hstop : w.stopping = true)
    (hr : w.state.step .stop = .ended r) :
    Step id w (.returned r) { w with bus := w.bus.drop id, state := .ended r }
  | bereave {r : Except GatewayError Unit} (hw : w.state = .waiting)
    (hend : (w.bus.receive id).2 = .ended) (hr : w.state.step .busEnded = .ended r) :
    Step id w (.returned r) { w with bus := w.bus.drop id, state := .ended r }
  | take {d : Delivery} (hw : w.state = .waiting) (hd : (w.bus.receive id).2 = .delivery d) :
    Step id w (.called (passed d).1 (passed d).2)
      { w with bus := (w.bus.receive id).1, state := w.state.step (.delivery d) }
  | answered {d : Delivery} (hw : w.state = .forwarding d) (reply : Except BusError Nat) :
    Step id w (.answered reply) { w with state := w.state.step .answered }
  | timedOut {d : Delivery} (hw : w.state = .forwarding d) :
    Step id w .timedOut { w with state := w.state.step .timedOut }

inductive ForwarderRun.Run (id : SubscriptionId) (w₀ : ForwarderRun) :
    List Occurrence → ForwarderRun → Prop
  | nil : Run id w₀ [] w₀
  | snoc {es : List Occurrence} {w v : ForwarderRun} {e : Occurrence} (h : Run id w₀ es w)
    (hs : w.Step id e v) : Run id w₀ (es ++ [e]) v

def calls (es : List Occurrence) : List (String × Message) := es.filterMap (·.call?)

/-- What the forwarder of a lead was sent: the publishes that concern it, until the bus gave up its
subscription. -/
def sent (lead : String) (es : List Occurrence) : List Delivery :=
  (es.takeWhile (!·.isEmptied)).filterMap (·.meant? lead)

variable {lead : String} {id : SubscriptionId} {b c : Bus} {w v w₀ : ForwarderRun}
  {es : List Occurrence} {e : Occurrence}

theorem calls_concat : calls (es ++ [e]) = calls es ++ e.call?.toList := by
  rw [calls, List.filterMap_append, ← calls]
  cases h : e.call? <;> simp [h]

theorem mem_emptied : Occurrence.emptied ∈ es ↔ es.any (·.isEmptied) = true := by
  rw [List.any_eq_true]
  constructor
  · intro h
    exact ⟨.emptied, h, rfl⟩
  · intro h
    obtain ⟨e, he, hempty⟩ := h
    cases e <;> first | contradiction | exact he

theorem sent_concat : sent lead (es ++ [e]) =
    sent lead es ++ if es.any (·.isEmptied) then [] else (e.meant? lead).toList := by
  induction es with
  | nil =>
    cases hempty : e.isEmptied with
    | false => cases hmeant : e.meant? lead <;> simp [sent, hempty, hmeant]
    | true =>
      have hmeant : e.meant? lead = none := by cases e <;> first | contradiction | rfl
      simp [sent, hempty, hmeant]
  | cons a es ih =>
    simp only [sent] at ih
    cases hempty : a.isEmptied <;> cases hmeant : a.meant? lead <;> simp [sent, hempty, hmeant, ih]

theorem sent_concat_of_none (h : e.meant? lead = none) : sent lead (es ++ [e]) = sent lead es := by
  rw [sent_concat, h]
  simp

def Owes (lead : String) (id : SubscriptionId) (b : Bus) (es : List Occurrence) : Prop :=
  ∃ box, b.mailboxes[id]? = some box ∧ box.pattern = Topic.allChannels lead ∧ box.held = true ∧
    calls es ++ box.waiting.map passed = (sent lead es).map passed

theorem Around.step (h : Around id b e c) : b.Step c := by
  cases h with
  | posted d => exact .post d
  | emptied => exact .forget
  | flagged => exact .flag
  | enrolled pattern => exact .enroll pattern
  | received hi => exact .receive _
  | dropped hi => exact .drop _

theorem Around.call?_eq (h : Around id b e c) : e.call? = none := by
  cases h <;> rfl

theorem Around.isOwn_eq (h : Around id b e c) : e.isOwn = false := by
  cases h <;> rfl

theorem Around.not_returned (h : Around id b e c) (r : Except GatewayError Unit) :
    e ≠ .returned r := by
  cases h <;> simp

theorem Around.not_stopping (h : Around id b e c) :
    e ≠ .stopRequested ∧ e ≠ .controllerGone := by
  cases h <;> simp

theorem Around.registered (h : Around id b e c) {box : Mailbox} (hbox : b.mailboxes[id]? = some box)
    (hheld : box.held = true) : id ∈ c.registry ↔ id ∈ b.registry ∧ e ≠ .emptied := by
  have hlt : id < b.mailboxes.length := (List.getElem?_eq_some_iff.1 hbox).1
  cases h with
  | posted d => simp [Bus.post, hbox, hheld]
  | emptied => simp [Bus.forget]
  | flagged => simp [Bus.flag]
  | enrolled pattern => simp [Bus.enroll, Nat.ne_of_lt hlt]
  | received hi => simp [Bus.registry_receive]
  | dropped hi => simp [Bus.drop, Bus.modify, Ne.symm hi]

theorem Around.mailbox (h : Around id b e c) (ho : b.Orderly) {box : Mailbox}
    (hbox : b.mailboxes[id]? = some box) (hpattern : box.pattern = Topic.allChannels lead)
    (hheld : box.held = true) :
    c.mailboxes[id]? = some { box with
      waiting := box.waiting ++ if id ∈ b.registry then (e.meant? lead).toList else [] } := by
  have hlt : id < b.mailboxes.length := (List.getElem?_eq_some_iff.1 hbox).1
  cases h with
  | posted d =>
    by_cases hid : id ∈ b.registry
    · by_cases hm : Subject.patternMatches box.pattern d.subject = true
      · rw [Bus.post_waiting ho hid hbox hheld hm, if_pos hid]
        simp [Occurrence.meant?, ← hpattern, hm]
      · have hnot : id ∉ b.concerned d.subject := by
          intro hc
          have hmatch := (List.mem_filter.1 hc).2
          rw [hbox, Option.any_some] at hmatch
          exact hm hmatch
        rw [Bus.post_of_not_concerned ho hnot, hbox]
        simp [Occurrence.meant?, ← hpattern, hm]
    · have hnot : id ∉ b.concerned d.subject := fun hc => hid (List.mem_filter.1 hc).1
      rw [Bus.post_of_not_concerned ho hnot, hbox, if_neg hid]
      simp
  | emptied => simp [Bus.forget, hbox, Occurrence.meant?]
  | flagged => simp [Bus.flag, hbox, Occurrence.meant?]
  | enrolled pattern =>
    have hkept : (b.enroll pattern).1.mailboxes[id]? = b.mailboxes[id]? :=
      List.getElem?_append_left hlt
    simp [hkept, hbox, Occurrence.meant?]
  | received hi => simp [Bus.getElem?_receive_of_ne b hi, hbox, Occurrence.meant?]
  | dropped hi => simp [Bus.drop, Bus.modify, hi, hbox, Occurrence.meant?]

def State.AtWork (s : State) : Prop := ∀ r, s ≠ .ended r

def State.open : State → Nat
  | .forwarding _ => 1
  | _ => 0

def State.over : State → Nat
  | .ended _ => 1
  | _ => 0

structure Sound (lead : String) (id : SubscriptionId) (w : ForwarderRun) (es : List Occurrence) :
    Prop where
  orderly : w.bus.Orderly
  stopping : w.stopping = true ↔ .stopRequested ∈ es ∨ .controllerGone ∈ es
  inOrder : calls es <+: (sent lead es).map passed
  registered : w.state.AtWork → (id ∈ w.bus.registry ↔ es.any (·.isEmptied) = false)
  owes : w.state.AtWork → Owes lead id w.bus es
  returned : (∃ r, w.state = .ended r) ↔ ∃ r, .returned r ∈ es
  tally : es.countP (·.isOwn) + w.state.open = 2 * (calls es).length + w.state.over

theorem Owes.inOrder (h : Owes lead id b es) : calls es <+: (sent lead es).map passed := by
  obtain ⟨box, -, -, -, hsent⟩ := h
  exact ⟨_, hsent⟩

theorem inOrder_concat (h : calls es <+: (sent lead es).map passed) (he : e.call? = none) :
    calls (es ++ [e]) <+: (sent lead (es ++ [e])).map passed := by
  rw [calls_concat, he, Option.toList_none, List.append_nil, sent_concat, List.map_append]
  exact h.trans (List.prefix_append _ _)

theorem Owes.around (ho : Owes lead id b es) (horderly : b.Orderly)
    (hreg : id ∈ b.registry ↔ es.any (·.isEmptied) = false) (h : Around id b e c) :
    Owes lead id c (es ++ [e]) := by
  obtain ⟨box, hbox, hpattern, hheld, hsent⟩ := ho
  refine ⟨_, h.mailbox horderly hbox hpattern hheld, hpattern, hheld, ?_⟩
  rw [calls_concat, h.call?_eq, Option.toList_none, List.append_nil, sent_concat, List.map_append,
    List.map_append, ← List.append_assoc, hsent]
  cases hempty : es.any (·.isEmptied) <;> simp [hreg, hempty]

theorem Owes.frame (ho : Owes lead id b es) (hcall : e.call? = none)
    (hmeant : e.meant? lead = none) :
    Owes lead id b (es ++ [e]) := by
  obtain ⟨box, hbox, hpattern, hheld, hsent⟩ := ho
  refine ⟨box, hbox, hpattern, hheld, ?_⟩
  rw [calls_concat, hcall, sent_concat_of_none hmeant, Option.toList_none, List.append_nil]
  exact hsent

theorem Owes.take (ho : Owes lead id b es) {d : Delivery} (hd : (b.receive id).2 = .delivery d) :
    Owes lead id (b.receive id).1 (es ++ [.called (passed d).1 (passed d).2]) := by
  obtain ⟨box, hbox, hpattern, hheld, hsent⟩ := ho
  cases hw : box.waiting with
  | nil =>
    rw [Bus.receive_of_empty hbox hw] at hd
    split at hd <;> contradiction
  | cons a rest =>
    rw [Bus.receive_of_waiting hbox hw] at hd
    cases hd
    rw [Bus.receive_of_waiting hbox hw]
    refine ⟨{ box with waiting := rest }, by simp [Bus.modify, hbox], hpattern, hheld, ?_⟩
    rw [calls_concat, sent_concat_of_none rfl, ← hsent, hw]
    simp [Occurrence.call?]

theorem Sound.around (hs : Sound lead id w es) (h : Around id w.bus e c) :
    Sound lead id { w with bus := c } (es ++ [e]) where
  orderly := h.step.orderly hs.orderly
  stopping := by simp [hs.stopping, Ne.symm h.not_stopping.1, Ne.symm h.not_stopping.2]
  inOrder := inOrder_concat hs.inOrder h.call?_eq
  registered := by
    intro hw
    obtain ⟨box, hbox, -, hheld, -⟩ := hs.owes hw
    rw [h.registered hbox hheld, hs.registered hw, List.any_append]
    cases e <;> simp [Occurrence.isEmptied]
  owes := fun hw => (hs.owes hw).around hs.orderly (hs.registered hw) h
  returned := by simp [hs.returned, fun r => Ne.symm (h.not_returned r)]
  tally := by
    have htally := hs.tally
    simpa [calls_concat, h.call?_eq, h.isOwn_eq] using htally

theorem Sound.stopping_of (hs : Sound lead id w es)
    (he : e = .stopRequested ∨ e = .controllerGone) :
    Sound lead id { w with stopping := true } (es ++ [e]) where
  orderly := hs.orderly
  stopping := by rcases he with rfl | rfl <;> simp
  inOrder := inOrder_concat hs.inOrder (by rcases he with rfl | rfl <;> rfl)
  registered := by
    intro hw
    rw [hs.registered hw, List.any_append]
    rcases he with rfl | rfl <;> simp [Occurrence.isEmptied]
  owes := by
    intro hw
    refine (hs.owes hw).frame ?_ ?_
    · rcases he with rfl | rfl <;> rfl
    · rcases he with rfl | rfl <;> rfl
  returned := by rcases he with rfl | rfl <;> simp [hs.returned]
  tally := by
    have htally := hs.tally
    rcases he with rfl | rfl <;> simpa [calls_concat, Occurrence.call?, Occurrence.isOwn] using htally

theorem Sound.take (hs : Sound lead id w es) (hw : w.state = .waiting) {d : Delivery}
    (hd : (w.bus.receive id).2 = .delivery d) :
    Sound lead id { w with bus := (w.bus.receive id).1, state := w.state.step (.delivery d) }
      (es ++ [.called (passed d).1 (passed d).2]) := by
  have hwork : w.state.AtWork := by simp [State.AtWork, hw]
  have howes := (hs.owes hwork).take hd
  refine
    { orderly := (Bus.Step.receive id).orderly hs.orderly
      stopping := by simp [hs.stopping]
      inOrder := howes.inOrder
      registered := ?_
      owes := fun _ => howes
      returned := by simp [← hs.returned, hw, State.step]
      tally := ?_ }
  · intro _
    rw [Bus.registry_receive, hs.registered hwork]
    simp [Occurrence.isEmptied]
  · have htally := hs.tally
    rw [hw] at htally
    simp only [List.countP_append, calls_concat, List.length_append, hw]
    simp [Occurrence.call?, Occurrence.isOwn, State.step, State.open, State.over] at htally ⊢
    omega

theorem Sound.resume (hs : Sound lead id w es) {d : Delivery} (hw : w.state = .forwarding d)
    (hown : e.isOwn = true) (hcall : e.call? = none) (hnot : ∀ r, e ≠ .returned r) :
    Sound lead id { w with state := .waiting } (es ++ [e]) := by
  have hwork : w.state.AtWork := by simp [State.AtWork, hw]
  have hplain : e.isEmptied = false ∧ e.meant? lead = none ∧ e ≠ .stopRequested ∧
      e ≠ .controllerGone := by
    cases e <;> first | contradiction | simp [Occurrence.isEmptied, Occurrence.meant?]
  obtain ⟨hempty, hmeant, hstop, hgone⟩ := hplain
  refine
    { orderly := hs.orderly
      stopping := by simp [hs.stopping, Ne.symm hstop, Ne.symm hgone]
      inOrder := inOrder_concat hs.inOrder hcall
      registered := fun _ => by simp [hs.registered hwork, hempty]
      owes := fun _ => (hs.owes hwork).frame hcall hmeant
      returned := by simp [← hs.returned, hw, fun r => Ne.symm (hnot r)]
      tally := ?_ }
  have htally := hs.tally
  rw [hw] at htally
  simp [calls_concat, hcall, hown, State.open, State.over] at htally ⊢
  omega

theorem Sound.leave (hs : Sound lead id w es) (hw : w.state = .waiting)
    (r : Except GatewayError Unit) :
    Sound lead id { w with bus := w.bus.drop id, state := .ended r } (es ++ [.returned r]) where
  orderly := (Bus.Step.drop id).orderly hs.orderly
  stopping := by simp [hs.stopping]
  inOrder := inOrder_concat hs.inOrder rfl
  registered := fun hwork => absurd rfl (hwork r)
  owes := fun hwork => absurd rfl (hwork r)
  returned := by simp
  tally := by
    have htally := hs.tally
    rw [hw] at htally
    simp [calls_concat, Occurrence.call?, Occurrence.isOwn, State.open, State.over] at htally ⊢
    omega

theorem Sound.step (hs : Sound lead id w es) (h : w.Step id e v) : Sound lead id v (es ++ [e]) := by
  cases h with
  | around h => exact hs.around h
  | stopRequested => exact hs.stopping_of (.inl rfl)
  | controllerGone => exact hs.stopping_of (.inr rfl)
  | @heed r hw hstop hr => exact hs.leave hw r
  | @bereave r hw hend hr => exact hs.leave hw r
  | take hw hd => exact hs.take hw hd
  | answered hw reply =>
    rw [hw]
    exact hs.resume hw rfl rfl (by simp)
  | timedOut hw =>
    rw [hw]
    exact hs.resume hw rfl rfl (by simp)

theorem ForwarderRun.Run.sound (h : ForwarderRun.Run id w₀ es w) (hs : Sound lead id w₀ []) :
    Sound lead id w es := by
  induction h with
  | nil => exact hs
  | snoc _ hstep ih => exact ih.step hstep

theorem ForwarderRun.Run.step_at (h : ForwarderRun.Run id w₀ es w) {before after : List Occurrence}
    (hes : es = before ++ e :: after) : ∃ u v, ForwarderRun.Run id w₀ before u ∧ u.Step id e v := by
  induction h generalizing after with
  | nil => simp at hes
  | @snoc es w v a hrun hstep ih =>
    rcases List.eq_nil_or_concat after with rfl | ⟨rest, a', rfl⟩
    · obtain ⟨rfl, ha⟩ := List.append_inj' hes rfl
      cases ha
      exact ⟨w, v, hrun, hstep⟩
    · rw [List.concat_eq_append, ← List.cons_append, ← List.append_assoc] at hes
      exact ih (List.append_inj' hes rfl).1

theorem sound_of_subscribe (hb : Bus.Uses {} b) (hsub : subscribe b lead = (c, .ok id)) :
    Sound lead id { bus := c } [] := by
  obtain ⟨-, henroll⟩ := enrolled_of_subscribe hsub
  have horderly : b.Orderly := hb.orderly Bus.orderly_empty
  have hbox : c.mailboxes[id]? = some { pattern := Topic.allChannels lead } := by
    cases henroll
    simp
  refine
    { orderly := ?_
      stopping := by simp
      inOrder := List.prefix_refl _
      registered := fun _ => ?_
      owes := fun _ => ⟨_, hbox, rfl, rfl, rfl⟩
      returned := by simp
      tally := rfl }
  · cases henroll
    exact (Bus.Step.enroll _).orderly horderly
  · simp [(subscribed_of_subscribe hsub).registered]

theorem ForwarderRun.Step.returned_cases {r : Except GatewayError Unit}
    (h : w.Step id (.returned r) v) :
    w.state = .waiting ∧ (r = .ok () ∧ w.stopping = true ∨
      r = .error (.stopped .busClosed) ∧ (w.bus.receive id).2 = .ended) := by
  cases h with
  | around h => exact absurd rfl (h.not_returned r)
  | heed hw hstop hr =>
    rw [hw] at hr
    cases hr
    exact ⟨hw, .inl ⟨rfl, hstop⟩⟩
  | bereave hw hend hr =>
    rw [hw] at hr
    cases hr
    exact ⟨hw, .inr ⟨rfl, hend⟩⟩

theorem Sound.of_ended (hs : Sound lead id w es) (hw : w.state = .waiting)
    (hend : (w.bus.receive id).2 = .ended) :
    .emptied ∈ es ∧ calls es = (sent lead es).map passed := by
  have hwork : w.state.AtWork := by simp [State.AtWork, hw]
  obtain ⟨box, hbox, -, -, hsent⟩ := hs.owes hwork
  cases hwaiting : box.waiting with
  | nil =>
    rw [Bus.receive_of_empty hbox hwaiting] at hend
    have hnot : id ∉ w.bus.registry := by
      intro hid
      simp [hid] at hend
    rw [hs.registered hwork, Bool.not_eq_false] at hnot
    rw [hwaiting, List.map_nil, List.append_nil] at hsent
    exact ⟨mem_emptied.2 hnot, hsent⟩
  | cons d rest =>
    rw [Bus.receive_of_waiting hbox hwaiting] at hend
    contradiction

theorem Sound.moves (hs : Sound lead id w es) (hrest : ∀ r, .returned r ∉ es)
    (hdue : (calls es).length < (sent lead es).length ∨ .emptied ∈ es ∨ .stopRequested ∈ es ∨
      .controllerGone ∈ es) : ∃ e v, e.isOwn = true ∧ w.Step id e v := by
  cases hw : w.state with
  | ended r =>
    obtain ⟨r, hr⟩ := hs.returned.1 ⟨r, hw⟩
    exact absurd hr (hrest r)
  | forwarding d => exact ⟨.timedOut, _, rfl, .timedOut hw⟩
  | waiting =>
    have hwork : w.state.AtWork := by simp [State.AtWork, hw]
    obtain ⟨box, hbox, -, -, hsent⟩ := hs.owes hwork
    cases hwaiting : box.waiting with
    | cons d rest =>
      have hd : (w.bus.receive id).2 = .delivery d := by
        rw [Bus.receive_of_waiting hbox hwaiting]
      exact ⟨_, _, rfl, .take hw hd⟩
    | nil =>
      have hlength := congrArg List.length hsent
      simp only [hwaiting, List.map_nil, List.append_nil, List.length_map] at hlength
      rcases hdue with hless | hempty | hstop
      · omega
      · have hnot : id ∉ w.bus.registry := by
          rw [hs.registered hwork, mem_emptied.1 hempty]
          exact Bool.noConfusion
        have hend : (w.bus.receive id).2 = .ended := by
          rw [Bus.receive_of_empty hbox hwaiting]
          simp [hnot]
        exact ⟨_, _, rfl, .bereave hw hend (by rw [hw]; rfl)⟩
      · exact ⟨_, _, rfl, .heed hw (hs.stopping.2 hstop) (by rw [hw]; rfl)⟩

theorem Sound.bounded (hs : Sound lead id w es) :
    es.countP (·.isOwn) ≤ 2 * (sent lead es).length + 1 := by
  have htally := hs.tally
  have hcalls := hs.inOrder.length_le
  rw [List.length_map] at hcalls
  have hover : w.state.over ≤ 1 := by cases w.state <;> simp [State.over]
  omega

structure Diligent (lead : String) (id : SubscriptionId) (es : List Occurrence) (w : ForwarderRun) :
    Prop where
  inOrder : calls es <+: (sent lead es).map fun d =>
    (Topic.edgeTopic d.message.channel d.message.subtopic, d.message)
  result : ∀ {before r after}, es = before ++ .returned r :: after →
    r = .ok () ∧ (.stopRequested ∈ before ∨ .controllerGone ∈ before) ∨
      r = .error (.stopped .busClosed) ∧ .emptied ∈ before
  complete : ∀ {before r after}, es = before ++ .returned r :: after →
    .stopRequested ∉ before → .controllerGone ∉ before →
    calls before = (sent lead before).map fun d =>
      (Topic.edgeTopic d.message.channel d.message.subtopic, d.message)
  unhindered : (∀ r, .returned r ∉ es) →
    (calls es).length < (sent lead es).length ∨ .emptied ∈ es ∨ .stopRequested ∈ es ∨
      .controllerGone ∈ es → ∃ e v, e.isOwn = true ∧ w.Step id e v
  bounded : es.countP (·.isOwn) ≤ 2 * (sent lead es).length + 1

theorem passes_on_what_it_is_sent (hb : Bus.Uses {} b) (hsub : subscribe b lead = (c, .ok id))
    (h : ForwarderRun.Run id { bus := c } es w) : Diligent lead id es w := by
  have hstart := sound_of_subscribe hb hsub
  have hs := h.sound hstart
  refine
    { inOrder := hs.inOrder
      result := ?_
      complete := ?_
      unhindered := hs.moves
      bounded := hs.bounded }
  · intro before r after hes
    obtain ⟨u, v, hrun, hstep⟩ := h.step_at hes
    have hu := hrun.sound hstart
    obtain ⟨hw, hcases⟩ := hstep.returned_cases
    rcases hcases with ⟨hr, hstop⟩ | ⟨hr, hend⟩
    · exact .inl ⟨hr, hu.stopping.1 hstop⟩
    · exact .inr ⟨hr, (hu.of_ended hw hend).1⟩
  · intro before r after hes hstop hgone
    obtain ⟨u, v, hrun, hstep⟩ := h.step_at hes
    have hu := hrun.sound hstart
    obtain ⟨hw, hcases⟩ := hstep.returned_cases
    rcases hcases with ⟨-, hstopping⟩ | ⟨-, hend⟩
    · rcases hu.stopping.1 hstopping with hmem | hmem
      · exact absurd hmem hstop
      · exact absurd hmem hgone
    · exact (hu.of_ended hw hend).2

theorem passes_on_what_it_is_sent_of_closed :
    ∃ (b : Bus) (d : Delivery) (es : List Occurrence) (w : ForwarderRun),
      subscribe {} "mqtt" = (b, .ok 0) ∧ ForwarderRun.Run 0 { bus := b } es w ∧
      w.state = .ended (.error (.stopped .busClosed)) ∧
      calls es = [("channels/c1/messages/t", d.message)] ∧ Diligent "mqtt" 0 es w := by
  let d : Delivery := ⟨"mqtt.c1.t", ⟨⟨"c1", by decide⟩, "t", ⟨"A"⟩, .mqtt, [0], 0⟩⟩
  let b : Bus := (subscribe {} "mqtt").1
  let full : ForwarderRun := { bus := b.post d }
  let busy : ForwarderRun := ⟨(full.bus.receive 0).1, .forwarding d, false⟩
  have hsub : subscribe {} "mqtt" = (b, .ok 0) := rfl
  have hreceive : (full.bus.receive 0).2 = .delivery d := by decide
  have hend : (busy.bus.forget.receive 0).2 = .ended := by decide
  have htake : full.Step 0 (.called (passed d).1 (passed d).2) busy := .take rfl hreceive
  have hrun : ForwarderRun.Run 0 { bus := b }
      [.posted d, .called (passed d).1 (passed d).2, .emptied, .timedOut,
        .returned (.error (.stopped .busClosed))]
      ⟨busy.bus.forget.drop 0, .ended (.error (.stopped .busClosed)), false⟩ :=
    ((((ForwarderRun.Run.nil.snoc (.around (.posted d))).snoc htake).snoc (.around .emptied)).snoc
      (.timedOut rfl)).snoc (.bereave rfl hend rfl)
  have htopic : passed d = ("channels/c1/messages/t", d.message) := by decide
  have hdiligent := passes_on_what_it_is_sent .refl hsub hrun
  exact ⟨b, d, _, _, hsub, hrun, rfl, congrArg (fun p => [p]) htopic, hdiligent⟩

theorem ForwarderRun.Run.append {fs : List Occurrence} (h : ForwarderRun.Run id w₀ es w)
    (hf : ForwarderRun.Run id w fs v) :
    ForwarderRun.Run id w₀ (es ++ fs) v := by
  induction hf with
  | nil => simpa using h
  | snoc _ hstep ih =>
    rw [← List.append_assoc]
    exact ih.snoc hstep

theorem calls_append (es fs : List Occurrence) : calls (es ++ fs) = calls es ++ calls fs :=
  List.filterMap_append

theorem ForwarderRun.run_pass {d : Delivery} (hw : w.state = .waiting)
    (hd : (w.bus.receive id).2 = .delivery d) (reply : Option (Except BusError Nat)) :
    ∃ es, ForwarderRun.Run id w es { w with bus := (w.bus.receive id).1 } ∧ calls es =
      [passed d] := by
  have htake := ForwarderRun.Run.nil.snoc (ForwarderRun.Step.take hw hd)
  have hcall : w.state.step (.delivery d) = .forwarding d := by rw [hw]; rfl
  have hback : ∀ i, i = .answered ∨ i = .timedOut → (State.forwarding d).step i = w.state := by
    intro i hi
    rw [hw]
    rcases hi with rfl | rfl <;> rfl
  rw [hcall] at htake
  cases reply with
  | none =>
    have hrun := htake.snoc (.timedOut rfl)
    rw [hback _ (.inr rfl)] at hrun
    exact ⟨_, hrun, rfl⟩
  | some reply =>
    have hrun := htake.snoc (.answered rfl reply)
    rw [hback _ (.inl rfl)] at hrun
    exact ⟨_, hrun, rfl⟩

open Rehearsal in
theorem run_of_relay (timeout : Nat) (manner : Nat → Manner) (e : RelayEnd) (moment : Nat)
    (r : Relay) (ds : List Delivery) {box : Mailbox} (hr : r.state = .waiting)
    (hw : w.state = .waiting) (hbox : w.bus.mailboxes[id]? = some box) (hds : box.waiting = ds) :
    ∃ es v, ForwarderRun.Run id w es v ∧
      v.state = (Relay.run timeout manner e moment r ds).state ∧
      (Relay.run timeout manner e moment r ds).calls.reverse.map (fun c => (c.topic, c.message)) =
        r.calls.reverse.map (fun c => (c.topic, c.message)) ++ calls es := by
  induction ds generalizing r w box with
  | nil =>
    cases e with
    | stop =>
      refine ⟨[.stopRequested, .returned (.ok ())], _,
        (ForwarderRun.Run.nil.snoc .stopRequested).snoc (.heed hw rfl (by rw [hw]; rfl)), ?_, ?_⟩
      · rw [Relay.run, hr]
        rfl
      · simp [Relay.run, calls, Occurrence.call?]
    | busClosed =>
      have hend : (w.bus.forget.receive id).2 = .ended := by
        have hbox' : w.bus.forget.mailboxes[id]? = some box := hbox
        rw [Bus.receive_of_empty hbox' hds]
        simp [Bus.forget]
      refine ⟨[.emptied, .returned (.error (.stopped .busClosed))], _,
        (ForwarderRun.Run.nil.snoc (.around .emptied)).snoc
          (.bereave hw hend (by rw [hw]; rfl)), ?_, ?_⟩
      · rw [Relay.run, hr]
        rfl
      · simp [Relay.run, calls, Occurrence.call?]
  | cons d ds ih =>
    by_cases hstop : Relay.isStopped e moment r.now = true
    · refine ⟨[.stopRequested, .returned (.ok ())], _,
        (ForwarderRun.Run.nil.snoc .stopRequested).snoc (.heed hw rfl (by rw [hw]; rfl)), ?_, ?_⟩
      · rw [Relay.run, if_pos hstop, hr]
        rfl
      · simp [Relay.run, hstop, calls, Occurrence.call?]
    · have hd : (w.bus.receive id).2 = .delivery d := by rw [Bus.receive_of_waiting hbox hds]
      obtain ⟨es, hrun, hcalls⟩ := ForwarderRun.run_pass hw hd
        ((Relay.treat timeout (manner r.calls.length)).2.map fun success =>
          if success then .ok 0 else .error .closed)
      have hpass : (r.pass timeout manner d).state = .waiting := by
        simp only [Relay.pass, hr]
        split <;> rfl
      have hbox' : (w.bus.receive id).1.mailboxes[id]? = some { box with waiting := ds } := by
        rw [Bus.receive_of_waiting hbox hds]
        simp [Bus.modify, hbox]
      obtain ⟨fs, v, hrest, hstate, hmade⟩ :=
        @ih { w with bus := (w.bus.receive id).1 } (r.pass timeout manner d) _ hpass hw hbox' rfl
      refine ⟨es ++ fs, v, hrun.append hrest, ?_, ?_⟩
      · rw [Relay.run, if_neg hstop]
        exact hstate
      · rw [Relay.run, if_neg hstop, hmade, calls_append, hcalls, ← List.append_assoc]
        simp [Relay.pass]

open Rehearsal in
/-- A turn of the forwarder's task is a run of the forwarder, whose calls the broker takes. -/
theorem run_of_pollForward (g : World) (t : Task) (ht : t.aborted = false) :
    ∃ es v, ForwarderRun.Run id ⟨g.house.services.bus, .waiting, g.stopping⟩ es v ∧
      (g.pollForward t id).house.services =
        (calls es).foldl (fun s c => (s.deliver c.1 c.2).1)
          { g.house.services with bus := v.bus } ∧
      (v.state = .waiting ∨
        ∃ r, v.state = .ended r ∧ g.pollForward t id =
          (g.modifyServices fun s => { s with bus := s.bus.drop id }).finish t (.result r)) := by
  have hfinish : ∀ (u : World) (e : Ending), (u.finish t e).house = u.house := by
    intro u e
    simp only [World.finish]
    split <;> rfl
  by_cases hstop : g.stopping = true
  · have hpoll : g.pollForward t id =
        (g.modifyServices fun s => { s with bus := s.bus.drop id }).finish t (.result (.ok ())) := by
      rw [World.pollForward, ht]
      simp [hstop, State.step]
    refine ⟨_, _, ForwarderRun.Run.nil.snoc (.heed rfl hstop rfl), ?_, .inr ⟨_, rfl, hpoll⟩⟩
    rw [hpoll, hfinish]
    rfl
  · have hpair : g.house.services.bus.receive id =
        ((g.house.services.bus.receive id).1, (g.house.services.bus.receive id).2) := rfl
    cases hreceive : (g.house.services.bus.receive id).2 with
    | delivery d =>
      rw [hreceive] at hpair
      obtain ⟨es, hrun, hcalls⟩ :=
        ForwarderRun.run_pass (w := ⟨g.house.services.bus, .waiting, g.stopping⟩) rfl hreceive
          (some (.ok 0))
      refine ⟨es, _, hrun, ?_, .inl rfl⟩
      rw [World.pollForward, ht, hpair, hcalls]
      simp [hstop, World.modifyServices, Services.forward]
    | pending =>
      rw [hreceive] at hpair
      refine ⟨[], _, .nil, ?_, .inl rfl⟩
      rw [World.pollForward, ht, hpair]
      simp [hstop, calls]
    | ended =>
      rw [hreceive] at hpair
      have hpoll : g.pollForward t id =
          (g.modifyServices fun s => { s with bus := s.bus.drop id }).finish t
            (.result (.error (.stopped .busClosed))) := by
        rw [World.pollForward, ht, hpair]
        simp [hstop, State.step]
      refine ⟨_, _, ForwarderRun.Run.nil.snoc (.bereave rfl hreceive rfl), ?_, .inr ⟨_, rfl, hpoll⟩⟩
      rw [hpoll, hfinish]
      rfl

end DeviceGateway.Forwarder
