import DeviceGateway.Proofs.Bus.Posting
import Mathlib.Data.List.Induction

/-!
# A bus delivers the log

Every operation on a bus leaves an entry with its answer, and what the bus does is said of these
entries alone. A subscription receives the publishes that were taken after it was opened and before
it was dropped or the bus closed, those that its pattern matches, in their order and each once. The
counters of the bus count entries.
-/

namespace DeviceGateway.Bus

inductive Op
  | subscribe (pattern : String)
  | publish (subject : String) (message : Message)
  | receive (id : SubscriptionId)
  | drop (id : SubscriptionId)
  | close

inductive Entry
  | subscribed (pattern : String) (r : Except BusError SubscriptionId)
  | published (d : Delivery) (r : Except BusError Unit)
  | received (id : SubscriptionId) (r : Received)
  | dropped (id : SubscriptionId)
  | closed

def perform (b : Bus) : Op → Bus × Entry
  | .subscribe pattern =>
    let (b, r) := b.subscribe pattern
    (b, .subscribed pattern r)
  | .publish subject message =>
    let (b, r) := b.publish subject message
    (b, .published ⟨subject, message⟩ r)
  | .receive id =>
    let (b, r) := b.receive id
    (b, .received id r)
  | .drop id => (b.drop id, .dropped id)
  | .close => (b.close, .closed)

structure Logged where
  bus : Bus := {}
  entries : List Entry := []

def Logged.perform (w : Logged) (op : Op) : Logged :=
  ⟨(w.bus.perform op).1, w.entries ++ [(w.bus.perform op).2]⟩

def Logged.run (w : Logged) (ops : List Op) : Logged := ops.foldl Logged.perform w

namespace Entry

def isAccepted : Entry → Bool
  | .published _ (.ok ()) => true
  | _ => false

def opened? : Entry → Option SubscriptionId
  | .subscribed _ (.ok id) => some id
  | _ => none

def yields? (id : SubscriptionId) : Entry → Option Delivery
  | .received i (.delivery d) => if i = id then some d else none
  | _ => none

def accepts? (pattern : String) : Entry → Option Delivery
  | .published d (.ok ()) => if Subject.patternMatches pattern d.subject then some d else none
  | _ => none

def drops (id : SubscriptionId) : Entry → Bool
  | .dropped i => i == id
  | _ => false

def isClosing : Entry → Bool
  | .closed => true
  | _ => false

def ends (id : SubscriptionId) (e : Entry) : Bool := e.drops id || e.isClosing

def isIdle : Entry → Bool
  | .subscribed _ (.error _) => true
  | .published _ (.error _) => true
  | .received _ .pending => true
  | .received _ .ended => true
  | _ => false

end Entry

variable {es after : List Entry} {e : Entry} {id : SubscriptionId} {pattern : String}

def yielded (id : SubscriptionId) (es : List Entry) : List Delivery := es.filterMap (·.yields? id)

/-- What a subscription is sent when `after` is all that came after it was opened. -/
def meant (id : SubscriptionId) (pattern : String) (after : List Entry) : List Delivery :=
  (after.takeWhile (!·.ends id)).filterMap (·.accepts? pattern)

/-- The subscription was opened, and `after` is what came after it. -/
def Opens (es : List Entry) (id : SubscriptionId) (pattern : String) (after : List Entry) : Prop :=
  ∃ before, es = before ++ .subscribed pattern (.ok id) :: after

def standing : List Entry → List SubscriptionId
  | [] => []
  | e :: es =>
    match e.opened? with
    | some id => if es.any (·.drops id) then standing es else id :: standing es
    | none => standing es

theorem Entry.of_isIdle (h : e.isIdle = true) :
    e.isAccepted = false ∧ e.isClosing = false ∧ e.opened? = none ∧
      ∀ id, e.drops id = false ∧ e.yields? id = none ∧ ∀ pattern, e.accepts? pattern = none := by
  simp only [isIdle] at h
  split at h
  · simp [isAccepted, isClosing, opened?, drops, yields?, accepts?]
  · simp [isAccepted, isClosing, opened?, drops, yields?, accepts?]
  · simp [isAccepted, isClosing, opened?, drops, yields?, accepts?]
  · simp [isAccepted, isClosing, opened?, drops, yields?, accepts?]
  · contradiction

theorem opens_concat : Opens (es ++ [e]) id pattern after ↔
    after = [] ∧ e = .subscribed pattern (.ok id) ∨
      ∃ rest, after = rest ++ [e] ∧ Opens es id pattern rest := by
  constructor
  · intro h
    obtain ⟨before, h⟩ := h
    rcases List.eq_nil_or_concat after with rfl | ⟨rest, e', rfl⟩
    · obtain ⟨-, he⟩ := List.append_inj' h rfl
      exact .inl ⟨rfl, (List.cons.inj he).1⟩
    · rw [List.concat_eq_append, ← List.cons_append, ← List.append_assoc] at h
      obtain ⟨hes, he⟩ := List.append_inj' h rfl
      rw [(List.cons.inj he).1, List.concat_eq_append]
      exact .inr ⟨rest, rfl, before, hes⟩
  · intro h
    rcases h with ⟨rfl, rfl⟩ | ⟨rest, rfl, before, rfl⟩
    · exact ⟨es, rfl⟩
    · exact ⟨before, by simp⟩

theorem yielded_concat : yielded id (es ++ [e]) = yielded id es ++ (e.yields? id).toList := by
  rw [yielded, List.filterMap_append, ← yielded]
  cases h : e.yields? id <;> simp [h]

theorem meant_concat : meant id pattern (after ++ [e]) =
    meant id pattern after ++
      if after.any (·.ends id) || e.ends id then [] else (e.accepts? pattern).toList := by
  induction after with
  | nil =>
    cases hends : e.ends id <;> cases haccepts : e.accepts? pattern <;>
      simp [meant, hends, haccepts]
  | cons a after ih =>
    simp only [meant] at ih
    cases hends : a.ends id <;> cases haccepts : a.accepts? pattern <;>
      simp [meant, hends, haccepts, ih]

theorem standing_concat : standing (es ++ [e]) =
    (standing es).filter (fun id => !e.drops id) ++ e.opened?.toList := by
  induction es with
  | nil => cases h : e.opened? <;> simp [standing, h]
  | cons a es ih =>
    rw [List.cons_append, standing, standing, ih]
    cases a.opened? with
    | none => rfl
    | some id =>
      cases hes : es.any (·.drops id) <;> cases he : e.drops id <;> simp [hes, he]

theorem opened?_eq_some : e.opened? = some id ↔ ∃ pattern, e = .subscribed pattern (.ok id) := by
  cases e with
  | subscribed pattern r => cases r <;> simp [Entry.opened?]
  | _ => simp [Entry.opened?]

theorem mem_standing : id ∈ standing es ↔
    ∃ pattern after, Opens es id pattern after ∧ after.any (·.drops id) = false := by
  induction es using List.reverseRecOn with
  | nil => simp [standing, Opens]
  | append_singleton es e ih =>
    rw [standing_concat, List.mem_append, List.mem_filter, ih, Option.mem_toList, opened?_eq_some]
    constructor
    · intro h
      rcases h with ⟨⟨pattern, rest, ho, hkept⟩, he⟩ | ⟨pattern, rfl⟩
      · have ho : Opens (es ++ [e]) id pattern (rest ++ [e]) :=
          opens_concat.2 (.inr ⟨rest, rfl, ho⟩)
        exact ⟨pattern, rest ++ [e], ho, by simpa [hkept] using he⟩
      · exact ⟨pattern, [], opens_concat.2 (.inl ⟨rfl, rfl⟩), rfl⟩
    · intro h
      obtain ⟨pattern, after, ho, hkept⟩ := h
      rcases opens_concat.1 ho with ⟨-, rfl⟩ | ⟨rest, rfl, hrest⟩
      · exact .inr ⟨pattern, rfl⟩
      · rw [List.any_append, Bool.or_eq_false_iff] at hkept
        exact .inl ⟨⟨pattern, rest, hrest, hkept.1⟩, by simpa using hkept.2⟩

inductive Turn (b : Bus) : Bus → Entry → Prop
  | enroll (hopen : b.isClosed = false) (pattern : String) :
    Turn b (b.enroll pattern).1 (.subscribed pattern (.ok b.mailboxes.length))
  | post (hopen : b.isClosed = false) (d : Delivery) : Turn b (b.post d) (.published d (.ok ()))
  | take {id : SubscriptionId} {box : Mailbox} {d : Delivery} {rest : List Delivery}
    (hbox : b.mailboxes[id]? = some box) (hw : box.waiting = d :: rest) :
    Turn b (b.modify id fun box => { box with waiting := rest }) (.received id (.delivery d))
  | drop (id : SubscriptionId) : Turn b (b.drop id) (.dropped id)
  | close : Turn b b.close .closed
  | idle {e : Entry} (he : e.isIdle = true) : Turn b b e

theorem perform_turn (b : Bus) (op : Op) : b.Turn (b.perform op).1 (b.perform op).2 := by
  cases op with
  | subscribe pattern =>
    simp only [perform, subscribe]
    split
    · exact .idle rfl
    · rename_i hopen
      split
      · exact .idle rfl
      · exact .enroll (by simpa using hopen) pattern
  | publish subject message =>
    simp only [perform, publish]
    split
    · exact .idle rfl
    · rename_i hopen
      split
      · exact .idle rfl
      · exact .post (by simpa using hopen) _
  | receive id =>
    simp only [perform, receive]
    split
    · exact .idle rfl
    · rename_i box hbox
      split
      · rename_i hw
        exact .take hbox hw
      · split <;> exact .idle rfl
  | drop id => exact .drop id
  | close => exact .close

def Keeps (b : Bus) (es : List Entry) (id : SubscriptionId) (pattern : String)
    (after : List Entry) : Prop :=
  ∃ box, b.mailboxes[id]? = some box ∧ box.pattern = pattern ∧
    box.held = !after.any (·.drops id) ∧
    if box.held then yielded id es ++ box.waiting = meant id pattern after
    else box.waiting = [] ∧ yielded id es <+: meant id pattern after

structure Sound (b : Bus) (es : List Entry) : Prop where
  orderly : b.Orderly
  flag : b.isClosed = es.any Entry.isClosing
  registry : b.registry = if b.isClosed then [] else standing es
  published : b.published = es.countP Entry.isAccepted
  fresh : ∀ id, b.mailboxes.length ≤ id → yielded id es = []
  keeps : ∀ {id pattern after}, Opens es id pattern after → b.Keeps es id pattern after
  once : ∀ {id pattern after pattern' after'}, Opens es id pattern after →
    Opens es id pattern' after' → pattern = pattern' ∧ after = after'

variable {b c : Bus}

theorem sound_empty : Sound {} [] where
  orderly := orderly_empty
  flag := rfl
  registry := rfl
  published := rfl
  fresh := fun _ _ => rfl
  keeps := fun ho => by simp [Opens] at ho
  once := fun ho => by simp [Opens] at ho

theorem Turn.eq_of_isIdle (h : b.Turn c e) (he : e.isIdle = true) : c = b := by
  cases h with
  | idle => rfl
  | _ => contradiction

theorem Turn.uses (h : b.Turn c e) : b.Uses c := by
  cases h with
  | enroll _ pattern => exact .single (.enroll pattern)
  | post _ d => exact .single (.post d)
  | @take id _ _ _ hbox hw =>
    have hstep : b.Step (b.receive id).1 := .receive id
    rw [receive_of_waiting hbox hw] at hstep
    exact .single hstep
  | drop id => exact .single (.drop id)
  | close => exact (Relation.ReflTransGen.single .flag).tail .forget
  | idle => exact .refl

theorem Sound.standing_of_registered (hs : b.Sound es) (hid : id ∈ b.registry) :
    id ∈ standing es := by
  rw [hs.registry] at hid
  split at hid
  · contradiction
  · exact hid

theorem Sound.held (hs : b.Sound es) (hid : id ∈ b.registry) :
    ∃ box, b.mailboxes[id]? = some box ∧ box.held = true := by
  obtain ⟨pattern, after, ho, hkept⟩ := mem_standing.1 (hs.standing_of_registered hid)
  obtain ⟨box, hbox, -, hheld, -⟩ := hs.keeps ho
  exact ⟨box, hbox, by rw [hheld, hkept, Bool.not_false]⟩

theorem Sound.post_registry (hs : b.Sound es) (d : Delivery) :
    (b.post d).registry = b.registry := by
  refine List.filter_eq_self.2 fun id hid => ?_
  obtain ⟨box, hbox, hheld⟩ := hs.held hid
  simp [hbox, hheld]

theorem Turn.flag (h : b.Turn c e) (hs : b.Sound es) :
    c.isClosed = (es ++ [e]).any Entry.isClosing := by
  rw [List.any_append, ← hs.flag]
  cases h with
  | enroll hopen pattern => exact (Bool.or_false _).symm
  | post hopen d => exact (isClosed_foldl_modify _ _ b).trans (Bool.or_false _).symm
  | take hbox hw => exact (Bool.or_false _).symm
  | drop id => exact (Bool.or_false _).symm
  | close => exact (Bool.or_true _).symm
  | idle he => simp [Entry.of_isIdle he]

theorem Turn.published (h : b.Turn c e) (hs : b.Sound es) :
    c.published = (es ++ [e]).countP Entry.isAccepted := by
  rw [List.countP_append, ← hs.published]
  cases h with
  | enroll hopen pattern => rfl
  | post hopen d => rfl
  | take hbox hw => rfl
  | drop id => rfl
  | close => rfl
  | idle he => simp [Entry.of_isIdle he]

theorem Turn.registry (h : b.Turn c e) (hs : b.Sound es) :
    c.registry = if c.isClosed then [] else standing (es ++ [e]) := by
  have hreg := hs.registry
  rw [standing_concat]
  cases h with
  | enroll hopen pattern => simp [Bus.enroll, hopen, hreg, Entry.opened?, Entry.drops]
  | post hopen d =>
    have hclosed : (b.post d).isClosed = false := (isClosed_foldl_modify _ _ b).trans hopen
    simp [hs.post_registry, hclosed, hopen, hreg, Entry.opened?, Entry.drops]
  | take hbox hw => simp [modify, hreg, Entry.opened?, Entry.drops]
  | drop id =>
    have hkept : (standing es).filter (· != id) =
        (standing es).filter fun i => !(Entry.dropped id).drops i :=
      List.filter_congr fun i _ => by simp [Entry.drops, bne, Bool.beq_comm]
    rw [← hkept]
    cases hclosed : b.isClosed <;> simp [Bus.drop, modify, hreg, hclosed, Entry.opened?]
  | close => rfl
  | idle he => simp [Entry.of_isIdle he, hreg]

theorem Turn.length_le (h : b.Turn c e) : b.mailboxes.length ≤ c.mailboxes.length := by
  cases h with
  | enroll hopen pattern => simp [Bus.enroll]
  | post hopen d => exact (length_foldl_modify _ _ b).ge
  | take hbox hw => simp [modify]
  | drop id => simp [Bus.drop, modify]
  | close => exact Nat.le_refl _
  | idle he => exact Nat.le_refl _

theorem Turn.lt_of_yields (h : b.Turn c e) {d : Delivery} (hy : e.yields? id = some d) :
    id < b.mailboxes.length := by
  cases h with
  | @take i _ _ _ hbox hw =>
    by_cases hi : i = id
    · exact hi ▸ (List.getElem?_eq_some_iff.1 hbox).1
    · simp [Entry.yields?, hi] at hy
  | idle he => simp [Entry.of_isIdle he] at hy
  | _ => contradiction

theorem Turn.opened_eq (h : b.Turn c (.subscribed pattern (.ok id))) :
    id = b.mailboxes.length := by
  cases h with
  | enroll => rfl
  | idle he => contradiction

theorem Turn.fresh (h : b.Turn c e) (hs : b.Sound es) (hid : c.mailboxes.length ≤ id) :
    yielded id (es ++ [e]) = [] := by
  have hid := Nat.le_trans h.length_le hid
  rw [yielded_concat, hs.fresh id hid, List.nil_append]
  cases hy : e.yields? id with
  | none => rfl
  | some d => exact absurd (h.lt_of_yields hy) (Nat.not_lt.2 hid)

theorem Keeps.prefix_meant (h : b.Keeps es id pattern after) :
    yielded id es <+: meant id pattern after := by
  obtain ⟨box, -, -, -, hsent⟩ := h
  split at hsent
  · exact ⟨box.waiting, hsent⟩
  · exact hsent.2

theorem Keeps.frame (h : b.Keeps es id pattern after) (hbox : c.mailboxes[id]? = b.mailboxes[id]?)
    (hy : e.yields? id = none) (hd : e.drops id = false)
    (ha : after.any (·.ends id) = true ∨ e.accepts? pattern = none) :
    c.Keeps (es ++ [e]) id pattern (after ++ [e]) := by
  have hmeant : meant id pattern (after ++ [e]) = meant id pattern after := by
    rw [meant_concat]
    rcases ha with ha | ha <;> simp [ha]
  rw [Keeps, hbox, yielded_concat, hy, hmeant, List.any_append]
  simpa [hd, Keeps] using h

theorem Opens.any_ends (ho : Opens es id pattern after) (hopen : es.any Entry.isClosing = false) :
    after.any (·.ends id) = after.any (·.drops id) := by
  obtain ⟨before, rfl⟩ := ho
  rw [Bool.eq_iff_iff, List.any_eq_true, List.any_eq_true]
  refine exists_congr fun a => and_congr_right fun ha => ?_
  have hclosing : ¬a.isClosing = true := List.any_eq_false.1 hopen a (by simp [ha])
  simp [Entry.ends, hclosing]

theorem Sound.keeps_post (hs : b.Sound es) (hopen : b.isClosed = false) (d : Delivery)
    (ho : Opens es id pattern after) :
    (b.post d).Keeps (es ++ [.published d (.ok ())]) id pattern
      (after ++ [.published d (.ok ())]) := by
  have hkeeps := hs.keeps ho
  have hends := ho.any_ends (hs.flag.symm.trans hopen)
  obtain ⟨box, hbox, hpattern, hheld, hsent⟩ := hs.keeps ho
  cases hdropped : after.any (·.drops id) with
  | true =>
    have hnot : id ∉ b.concerned d.subject := by
      intro hid
      obtain ⟨box', hbox', hheld'⟩ := hs.held (List.mem_filter.1 hid).1
      cases hbox.symm.trans hbox'
      rw [hheld', hdropped] at hheld
      contradiction
    exact hkeeps.frame (post_of_not_concerned hs.orderly hnot) rfl rfl (.inl (hends.trans hdropped))
  | false =>
    have hid : id ∈ b.registry := by
      rw [hs.registry, if_neg (by simp [hopen])]
      exact mem_standing.2 ⟨pattern, after, ho, hdropped⟩
    cases hm : Subject.patternMatches pattern d.subject with
    | false =>
      have hnot : id ∉ b.concerned d.subject := by
        intro hid
        have hmatch := (List.mem_filter.1 hid).2
        rw [hbox, Option.any_some, hpattern, hm] at hmatch
        contradiction
      refine hkeeps.frame (post_of_not_concerned hs.orderly hnot) rfl rfl (.inr ?_)
      simp [Entry.accepts?, hm]
    | true =>
      rw [hdropped, Bool.not_false] at hheld
      rw [if_pos hheld] at hsent
      refine ⟨_, post_waiting hs.orderly hid hbox hheld (hpattern ▸ hm), hpattern, ?_, ?_⟩
      · rw [List.any_append, hdropped]
        exact hheld
      · rw [if_pos hheld, yielded_concat, meant_concat, hends, hdropped, ← hsent]
        simp [Entry.yields?, Entry.accepts?, Entry.ends, Entry.drops, Entry.isClosing, hm]

theorem Keeps.take {box : Mailbox} {d : Delivery} {rest : List Delivery}
    (h : b.Keeps es id pattern after) (hbox : b.mailboxes[id]? = some box)
    (hw : box.waiting = d :: rest) :
    (b.modify id fun box => { box with waiting := rest }).Keeps
      (es ++ [.received id (.delivery d)]) id pattern (after ++ [.received id (.delivery d)]) := by
  obtain ⟨box', hbox', hpattern, hheld, hsent⟩ := h
  cases hbox.symm.trans hbox'
  split at hsent
  · rename_i hyes
    refine ⟨{ box with waiting := rest }, by simp [modify, hbox], hpattern, ?_, ?_⟩
    · simpa [Entry.drops] using hheld
    · rw [if_pos hyes, yielded_concat, meant_concat, ← hsent, hw]
      simp [Entry.yields?, Entry.accepts?]
  · rw [hsent.1] at hw
    contradiction

theorem Keeps.drop (h : b.Keeps es id pattern after) :
    (b.drop id).Keeps (es ++ [.dropped id]) id pattern (after ++ [.dropped id]) := by
  have hprefix := h.prefix_meant
  obtain ⟨box, hbox, hpattern, -, -⟩ := h
  refine ⟨{ box with waiting := [], held := false }, by simp [Bus.drop, modify, hbox], hpattern,
    by simp [Entry.drops], ?_⟩
  rw [if_neg Bool.false_ne_true, yielded_concat, meant_concat]
  exact ⟨rfl, by simpa [Entry.yields?, Entry.ends, Entry.drops] using hprefix⟩

theorem Turn.keeps (h : b.Turn c e) (hs : b.Sound es) (ho : Opens (es ++ [e]) id pattern after) :
    c.Keeps (es ++ [e]) id pattern after := by
  rcases opens_concat.1 ho with ⟨rfl, rfl⟩ | ⟨rest, rfl, hrest⟩
  · -- the number of a new subscription is one that nobody has received from
    cases h with
    | enroll hopen pattern =>
      have hnone := hs.fresh _ (Nat.le_refl b.mailboxes.length)
      refine ⟨{ pattern := pattern }, by simp [Bus.enroll], rfl, rfl, ?_⟩
      rw [if_pos rfl, yielded_concat, hnone]
      rfl
    | idle he => contradiction
  · have hkeeps := hs.keeps hrest
    cases h with
    | enroll hopen pattern =>
      refine hkeeps.frame ?_ rfl rfl (.inr rfl)
      obtain ⟨box, hbox, -⟩ := hkeeps
      exact List.getElem?_append_left (List.getElem?_eq_some_iff.1 hbox).1
    | post hopen d => exact hs.keeps_post hopen d hrest
    | @take i _ d _ hbox hw =>
      by_cases hi : i = id
      · subst i
        exact hkeeps.take hbox hw
      · refine hkeeps.frame ?_ ?_ rfl (.inr rfl)
        · simp [modify, hi]
        · simp [Entry.yields?, hi]
    | drop i =>
      by_cases hi : i = id
      · subst i
        exact hkeeps.drop
      · refine hkeeps.frame ?_ rfl ?_ (.inr rfl)
        · simp [Bus.drop, modify, hi]
        · simp [Entry.drops, hi]
    | close => exact hkeeps.frame rfl rfl rfl (.inr rfl)
    | idle he =>
      obtain ⟨-, -, -, hnone⟩ := Entry.of_isIdle he
      obtain ⟨hd, hy, ha⟩ := hnone id
      exact hkeeps.frame rfl hy hd (.inr (ha pattern))

theorem Turn.once (h : b.Turn c e) (hs : b.Sound es) {pattern' : String} {after' : List Entry}
    (ho : Opens (es ++ [e]) id pattern after) (ho' : Opens (es ++ [e]) id pattern' after') :
    pattern = pattern' ∧ after = after' := by
  have hnew : ∀ {p p' rest}, e = .subscribed p (.ok id) → ¬Opens es id p' rest := by
    intro p p' rest he hrest
    subst he
    obtain ⟨box, hbox, -⟩ := hs.keeps hrest
    have hlt := (List.getElem?_eq_some_iff.1 hbox).1
    exact absurd hlt (h.opened_eq ▸ Nat.lt_irrefl _)
  rcases opens_concat.1 ho with ⟨rfl, he⟩ | ⟨rest, rfl, hrest⟩
  · rcases opens_concat.1 ho' with ⟨rfl, he'⟩ | ⟨rest', rfl, hrest'⟩
    · cases he.symm.trans he'
      exact ⟨rfl, rfl⟩
    · exact absurd hrest' (hnew he)
  · rcases opens_concat.1 ho' with ⟨rfl, he'⟩ | ⟨rest', rfl, hrest'⟩
    · exact absurd hrest (hnew he')
    · obtain ⟨rfl, rfl⟩ := hs.once hrest hrest'
      exact ⟨rfl, rfl⟩

theorem Turn.sound (h : b.Turn c e) (hs : b.Sound es) : c.Sound (es ++ [e]) where
  orderly := h.uses.orderly hs.orderly
  flag := h.flag hs
  registry := h.registry hs
  published := h.published hs
  fresh := fun _ hid => h.fresh hs hid
  keeps := h.keeps hs
  once := h.once hs

theorem Logged.sound_run (ops : List Op) {w : Logged} (hs : w.bus.Sound w.entries) :
    (w.run ops).bus.Sound (w.run ops).entries := by
  induction ops generalizing w with
  | nil => exact hs
  | cons op ops ih => exact ih ((perform_turn w.bus op).sound hs)

theorem Sound.owes (hs : b.Sound es) (ho : Opens es id pattern after)
    (hkept : after.any (·.drops id) = false) :
    ∃ box, b.mailboxes[id]? = some box ∧ yielded id es ++ box.waiting = meant id pattern after := by
  obtain ⟨box, hbox, -, hheld, hsent⟩ := hs.keeps ho
  rw [hkept, Bool.not_false] at hheld
  rw [if_pos hheld] at hsent
  exact ⟨box, hbox, hsent⟩

theorem Sound.registered_iff (hs : b.Sound es) (ho : Opens es id pattern after)
    (hkept : after.any (·.drops id) = false) :
    id ∈ b.registry ↔ es.any Entry.isClosing = false := by
  have hstanding : id ∈ standing es := mem_standing.2 ⟨pattern, after, ho, hkept⟩
  rw [hs.registry, hs.flag]
  cases es.any Entry.isClosing <;> simp [hstanding]

theorem Sound.receive_next (hs : b.Sound es) (ho : Opens es id pattern after)
    (hkept : after.any (·.drops id) = false) :
    (b.receive id).2 =
      match (meant id pattern after)[(yielded id es).length]? with
      | some d => .delivery d
      | none => if es.any Entry.isClosing then .ended else .pending := by
  obtain ⟨box, hbox, hsent⟩ := hs.owes ho hkept
  have hnext : (meant id pattern after)[(yielded id es).length]? = box.waiting[0]? := by
    rw [← hsent, List.getElem?_append_right (Nat.le_refl _), Nat.sub_self]
  rw [hnext]
  cases hw : box.waiting with
  | nil =>
    rw [receive_of_empty hbox hw]
    simp only [hs.registered_iff ho hkept]
    cases es.any Entry.isClosing <;> rfl
  | cons d rest =>
    rw [receive_of_waiting hbox hw]
    rfl

theorem Logged.run_cons (w : Logged) (op : Op) (ops : List Op) :
    w.run (op :: ops) = (w.perform op).run ops := rfl

theorem Logged.run_receive_ended (w : Logged) {box : Mailbox}
    (hbox : w.bus.mailboxes[id]? = some box) (hgone : id ∉ w.bus.registry)
    (hw : box.waiting = []) (k : Nat) :
    (w.run (List.replicate k (.receive id))).entries =
      w.entries ++ List.replicate k (.received id .ended) := by
  induction k generalizing w with
  | zero => exact (List.append_nil _).symm
  | succ k ih =>
    have hperform : w.perform (.receive id) = ⟨w.bus, w.entries ++ [.received id .ended]⟩ := by
      simp only [Logged.perform, Bus.perform, receive_of_empty hbox hw, if_neg hgone]
    have hrest := ih (w.perform (.receive id))
    rw [hperform] at hrest
    rw [List.replicate_succ, run_cons, hperform, hrest hbox hgone]
    simp [List.replicate_succ]

theorem Logged.run_receive (w : Logged) {box : Mailbox}
    (hbox : w.bus.mailboxes[id]? = some box) (hgone : id ∉ w.bus.registry) (k : Nat) :
    (w.run (List.replicate (box.waiting.length + k) (.receive id))).entries =
      w.entries ++ box.waiting.map (fun d => .received id (.delivery d)) ++
        List.replicate k (.received id .ended) := by
  induction hw : box.waiting generalizing w box with
  | nil =>
    rw [List.length_nil, Nat.zero_add, List.map_nil, List.append_nil]
    exact run_receive_ended w hbox hgone hw k
  | cons d rest ih =>
    have hperform : w.perform (.receive id) =
        ⟨w.bus.modify id fun box => { box with waiting := rest },
          w.entries ++ [.received id (.delivery d)]⟩ := by
      simp only [Logged.perform, Bus.perform, receive_of_waiting hbox hw]
    have hbox' : (w.bus.modify id fun box => { box with waiting := rest }).mailboxes[id]? =
        some { box with waiting := rest } := by simp [modify, hbox]
    have hrest := @ih (w.perform (.receive id)) { box with waiting := rest }
    rw [hperform] at hrest
    rw [List.length_cons, Nat.succ_add, List.replicate_succ, run_cons, hperform,
      hrest hbox' hgone rfl]
    simp

/-- The answers of a bus, and its counters, are those that the log gives. -/
structure Faithful (w : Logged) : Prop where
  once : ∀ {id pattern after pattern' after'}, Opens w.entries id pattern after →
    Opens w.entries id pattern' after' → pattern = pattern' ∧ after = after'
  inOrder : ∀ {id pattern after}, Opens w.entries id pattern after →
    yielded id w.entries <+: meant id pattern after
  /-- Without loss: what is asked for next is the first that has not been received. -/
  next : ∀ {id pattern after}, Opens w.entries id pattern after →
    after.any (·.drops id) = false →
    (w.bus.receive id).2 =
      match (meant id pattern after)[(yielded id w.entries).length]? with
      | some d => .delivery d
      | none => if w.entries.any Entry.isClosing then .ended else .pending
  drained : ∀ {id pattern after}, Opens w.entries id pattern after →
    after.any (·.drops id) = false → w.entries.any Entry.isClosing = true → ∀ k,
    let owed := (meant id pattern after).drop (yielded id w.entries).length
    (w.run (List.replicate (owed.length + k) (.receive id))).entries =
      w.entries ++ owed.map (fun d => .received id (.delivery d)) ++
        List.replicate k (.received id .ended)
  published : w.bus.published = w.entries.countP Entry.isAccepted
  subscribers : w.bus.subscribers =
    if w.entries.any Entry.isClosing then 0 else (standing w.entries).length
  subscribe_refused : ∀ {pattern err}, (w.bus.subscribe pattern).2 = .error err →
    (w.bus.subscribe pattern).1 = w.bus
  publish_refused : ∀ {subject message err}, (w.bus.publish subject message).2 = .error err →
    (w.bus.publish subject message).1 = w.bus

theorem Sound.faithful {w : Logged} (hs : w.bus.Sound w.entries) : Faithful w where
  once := hs.once
  inOrder := fun ho => (hs.keeps ho).prefix_meant
  next := hs.receive_next
  drained := by
    intro id pattern after ho hkept hclosed k
    obtain ⟨box, hbox, hsent⟩ := hs.owes ho hkept
    have hgone : id ∉ w.bus.registry := by simp [hs.registered_iff ho hkept, hclosed]
    rw [← hsent, List.drop_left]
    exact Logged.run_receive w hbox hgone k
  published := hs.published
  subscribers := by
    rw [subscribers, hs.registry, hs.flag]
    split <;> rfl
  subscribe_refused := by
    intro pattern err h
    refine (perform_turn w.bus (.subscribe pattern)).eq_of_isIdle ?_
    simp [perform, h, Entry.isIdle]
  publish_refused := by
    intro subject message err h
    refine (perform_turn w.bus (.publish subject message)).eq_of_isIdle ?_
    simp [perform, h, Entry.isIdle]

theorem deliveries_match_log (ops : List Op) : Faithful (({} : Logged).run ops) :=
  Sound.faithful (Logged.sound_run ops sound_empty)

end DeviceGateway.Bus
