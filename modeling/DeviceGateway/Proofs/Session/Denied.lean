import DeviceGateway.Proofs.Session.Life
import DeviceGateway.Proofs.Session.Replying
import Mathlib.Data.Finset.Basic
import Mathlib.Data.List.Induction

/-!
# What a denial leaves behind

A packet that asks for leave may be denied it, for all or only for some of what it asks for, and the
device is told so. Until then nothing but the policy was asked, and then the session waits as it did
before the packet came.
-/

namespace DeviceGateway
open Activity (obeys_bind obeys_andThen)

def Inquiries (h : Dealings) : Prop :=
  ∀ e ∈ h, ∃ client channel action, e.1 = .authorize client channel action

theorem Judged.inquiries {read : String → Except TopicError Channel} {client : ClientId}
    {action : Action} {topics : List String} {d : Dealings} {v : Except GatewayError (List Channel)}
    (h : Judged read client action topics d v) : Inquiries d := by
  induction h with
  | none | unreadable => simp [Inquiries]
  | denied => simp [Inquiries]
  | allowed _ _ ih => exact List.forall_mem_cons.2 ⟨⟨_, _, _, rfl⟩, ih⟩

structure Refusing (h : Dealings) (c : Call) : Prop where
  unsent : sentBy h.calls = []
  refuses : ∀ text, c = .send (.error 403 text) → Inquiries h

def Unmoved (x : Session) (h : Dealings) (y : Session × Next) : Prop :=
  ∀ text, (⟨.send (.error 403 text), .ok ()⟩ : Σ c : Call, c.Reply) ∈ h → y = (x, .proceed)

namespace Session
variable {s x : Session} {st : Settings} {m : Moment} {ms : Moments} {queue : QueueId}
variable {h d : Dealings}
variable {client : ClientId} {read : String → Except TopicError Channel} {action : Action}
variable {topics : List String} {p : Packet} {w : Work Session (Session × Next)}

theorem sendThen_refusing (hh : sentBy h.calls = [])
    (hp : ∀ text, p = .error 403 text → Inquiries h) :
    (s.sendThen p .proceed).Obeys (fun h _ => Refusing h) (Unmoved s) h := by
  refine ⟨⟨hh, fun text hc => hp text (Call.send.inj hc)⟩, fun r => ?_⟩
  cases r with
  | ok u => exact fun _ _ => rfl
  | error e =>
    intro text hmem
    rcases List.mem_append.1 hmem with hmem | hmem
    · have hsent : .error 403 text ∈ sentBy h.calls :=
        List.mem_filterMap.2 ⟨_, List.mem_map_of_mem hmem, rfl⟩
      rw [hh] at hsent
      cases hsent
    · cases List.mem_singleton.1 hmem

theorem reply_refusing {α : Type} {answer : α → Option Packet} {work : Attempt Session α}
    (ha : ∀ a text, answer a ≠ some (.error 403 text))
    (hw : work.Obeys (fun _ _ c => c.packet? = none) (fun h r => ∀ e, r = .error e → Inquiries h) h)
    (hh : sentBy h.calls = []) :
    (s.reply answer work).Obeys (fun h _ => Refusing h) (Unmoved s) h := by
  refine obeys_bind.2 ((obeys_unsent hw hh).mono (fun _ _ _ c hc => ⟨hc.2, ?_⟩) fun h' _ r hr => ?_)
  · rintro text rfl
    cases hc.1
  · obtain ⟨hinquiries, hh'⟩ := hr
    cases r with
    | error e => exact sendThen_refusing hh' fun _ _ => hinquiries e rfl
    | ok a =>
      cases hp : answer a with
      | none =>
        simp only [hp]
        exact fun _ _ => rfl
      | some p =>
        simp only [hp]
        exact sendThen_refusing hh' fun text hforbids =>
          absurd (hp.trans (hforbids ▸ rfl)) (ha a text)

theorem Uses.request_inquires {given : List Grant → Attempt Session (List String)}
    (hu : x.Uses st ms action given) (hs : x.connected? = some client)
    (topics : List String) :
    ((requestFilters x client action topics).andThen given).Obeys (fun _ _ c => c.packet? = none)
      (fun h r => ∀ e, r = .error e → Inquiries h) [] := by
  refine obeys_andThen.2 ((requestFilters_judged x client action topics).imp fun h' _ r hr => ?_)
  obtain ⟨asked, v, rfl, hj, rfl⟩ := hr
  cases v with
  | error e => exact fun _ _ => hj.inquiries
  | ok cs =>
    refine (hu.returns hs cs).imp fun _ _ r hr e he => ?_
    rw [hr] at he
    cases he

theorem packet_refusing (hs : x.connected? = some client) (hp : p.Asks read action topics) :
    (x.packet st ms queue p).Obeys (fun h _ => Refusing h) (Unmoved x) [] := by
  cases hp with
  | publish topic payload =>
    rw [packet_publish hs]
    cases hc : Topic.parse topic with
    | error e => exact sendThen_refusing rfl fun _ _ => by simp [Inquiries]
    | ok c =>
      refine ⟨⟨rfl, by simp⟩, fun r => ?_⟩
      cases r with
      | error e => exact sendThen_refusing rfl fun _ _ => by simp [Inquiries]
      | ok u =>
        refine ⟨⟨rfl, by simp⟩, fun r => ?_⟩
        cases r with
        | error e => exact sendThen_refusing rfl fun _ hforbids => by cases hforbids
        | ok u => exact fun _ _ => rfl
  | subscribe topics =>
    simp only [packet, authSubscribe, whenConnected, hs]
    exact reply_refusing (by simp) ((Uses.subscribe queue).request_inquires hs _) rfl
  | unsubscribe topics =>
    simp only [packet, authUnsubscribe, whenConnected, hs]
    exact reply_refusing (by simp) (Uses.unsubscribe.request_inquires hs _) rfl

theorem reaches_denial (hs : x.connected? = some client) (hp : p.Asks read action topics)
    (hr : (x.packet st ms queue p).Reaches d w) {text : String}
    (hmem : (⟨.send (.error 403 text), .ok ()⟩ : Σ c : Call, c.Reply) ∈ d) :
    (∃ asked : Dealings, d = asked ++ [⟨.send (.error 403 text), .ok ()⟩] ∧ Inquiries asked) ∧
      w = .done (x, .proceed) := by
  have hobeys : (x.packet st ms queue p).Obeys (fun h _ => Refusing h) (Unmoved x) [] :=
    packet_refusing hs hp
  obtain ⟨asked, t, ⟨rest, rfl⟩, hrefusing⟩ := hobeys.of_mem hr hmem
  obtain ⟨w', hsent, hrest⟩ := hr.split
  cases w' with
  | call t c k =>
    have hunsent := (hobeys.call hsent).unsent
    simp [Dealings.calls, sentBy, Call.packet?] at hunsent
  | done y =>
    have hy : y = (x, .proceed) := hobeys.result hsent text (by simp)
    obtain ⟨rfl, rfl⟩ := Activity.reaches_done_iff.1 hrest
    rw [hy]
    exact ⟨⟨asked, by simp, hrefusing.refuses text rfl⟩, rfl⟩

theorem opening_unforbidding {bytes : Bytes} (hb : Packet.ofFrame? bytes = some p)
    (hp : p.Asks read action topics) :
    (s.opening st m (.frame bytes)).Obeys (fun _ _ c => ∀ text, c ≠ .send (.error 403 text))
      (fun _ _ => True) [] := by
  have hrefuse : s.opening st m (.frame bytes) = s.refuse Packet.badPacket "expected Connect"
      (unexpected "first packet must be Connect") := by
    cases hp <;> simp only [opening, hb]
  rw [hrefuse]
  refine ⟨fun text => by simp [Packet.badPacket], fun r => ?_⟩
  cases r <;> trivial

end Session

/-- The packet that arrived asks for leave and is answered that it has none. -/
structure Round.Denied (r : Round) : Prop where
  asks : ∃ bytes p read action topics, r.arrival = .frame bytes ∧ Packet.ofFrame? bytes = some p ∧
    p.Asks read action topics
  told : ∃ text, (⟨.send (.error 403 text), .ok ()⟩ : Σ c : Call, c.Reply) ∈ r.dealings

/-- Nothing came of the packet that arrived but questions to the policy and the denial. -/
structure Round.Fruitless (r : Round) : Prop extends r.Denied where
  inquiries : ∃ asked text,
    r.dealings = asked ++ [⟨.send (.error 403 text), .ok ()⟩] ∧ Inquiries asked

/-- The call may have an effect on others, or tells the device something else than a denial. -/
def Call.lasts : Call → Bool
  | .authorize _ _ _ => false
  | .send (.error code _) => code != 403
  | _ => true

theorem Inquiries.filter_lasts {d : Dealings} (h : Inquiries d) :
    d.calls.filter Call.lasts = [] := by
  refine List.filter_eq_nil_iff.2 fun c hc => ?_
  obtain ⟨e, he, rfl⟩ := List.mem_map.1 hc
  obtain ⟨client, channel, action, hcall⟩ := h e he
  simp [hcall, Call.lasts]

theorem Round.Fruitless.filter_lasts {r : Round} (h : r.Fruitless) :
    r.calls.filter Call.lasts = [] := by
  obtain ⟨asked, text, hd, hasked⟩ := h.inquiries
  rw [Round.calls, hd, Dealings.calls, List.map_append, List.filter_append, ← Dealings.calls,
    hasked.filter_lasts]
  rfl

section
variable {st : Settings} {queue : QueueId} {name : String} {protocol : Protocol}
variable {rs : List Round} {v : Serving} {m : Moments} {r : Round}
variable {w w' : Work Session (Session × Next)}

theorem Handled.fruitless (h : Handled st queue (.opening (.start name protocol)) rs v)
    (ha : v.arrive st m queue r.arrival = .working w) (hr : w.Reaches r.dealings w')
    (hd : r.Denied) : r.Fruitless ∧ ∃ x, v = .reading x ∧ w' = .done (x, .proceed) := by
  obtain ⟨a, d⟩ := r
  obtain ⟨bytes, p, read, action, topics, hframe, hb, hp⟩ := hd.asks
  obtain ⟨text, hmem⟩ := hd.told
  cases hframe
  rcases h.attended with ⟨-, rfl⟩ | ⟨x, client, rfl, hs, -⟩
  · cases ha
    obtain ⟨-, -, -, hnot⟩ := (Session.opening_unforbidding hb hp).of_mem hr hmem
    exact absurd rfl (hnot text)
  · cases ha
    simp only [Session.reading, hb] at hr
    obtain ⟨⟨asked, hdealings, hasked⟩, hdone⟩ := Session.reaches_denial hs hp hr hmem
    exact ⟨{ hd with inquiries := ⟨asked, text, hdealings, hasked⟩ }, x, rfl, hdone⟩

theorem Handled.forall_fruitless (h : Handled st queue (.opening (.start name protocol)) rs v) :
    ∀ r ∈ rs, r.Denied → r.Fruitless := by
  induction h with
  | start => simp
  | @round rs v h hv m a w ha d x next hr hn ih =>
    refine List.forall_mem_append.2 ⟨ih, ?_⟩
    rw [List.forall_mem_singleton]
    exact fun hd => (h.fruitless (r := ⟨a, d⟩) ha hr hd).1

theorem Served.forall_fruitless (h : Served st queue (.opening (.start name protocol)) rs v) :
    ∀ r ∈ rs, r.Denied → r.Fruitless := by
  cases h with
  | between h => exact h.forall_fruitless
  | @within rs v h hv m a w ha d w' hr =>
    refine List.forall_mem_append.2 ⟨h.forall_fruitless, ?_⟩
    rw [List.forall_mem_singleton]
    exact fun hd => (h.fruitless (r := ⟨a, d⟩) ha hr hd).1

theorem Line.Run.fruitless {acts : List Act} {l : Line}
    (hr : Run st queue { serving := .opening (.start name protocol) } acts l) :
    ∀ r ∈ rounds acts, r.Denied → r.Fruitless := by
  obtain ⟨left, -, -, hserved, -⟩ := hr.account
  exact hserved.forall_fruitless

end

def Round.replies (r : Round) : List Packet := sentBy r.calls

theorem Round.Fruitless.replies_eq {r : Round} (h : r.Fruitless) :
    ∃ text, r.replies = [.error 403 text] := by
  obtain ⟨asked, text, hd, hasked⟩ := h.inquiries
  have hunsent : sentBy asked.calls = [] := by
    refine List.filterMap_eq_nil_iff.2 fun c hc => ?_
    obtain ⟨e, he, rfl⟩ := List.mem_map.1 hc
    obtain ⟨client, channel, action, hcall⟩ := hasked e he
    rw [hcall]
    rfl
  refine ⟨text, ?_⟩
  rw [replies, calls, hd, Dealings.calls, List.map_append, sentBy_append, ← Dealings.calls, hunsent]
  rfl

theorem filterMap_filter_lasts {β : Type} {f : Call → Option β}
    (hf : ∀ c, c.lasts = false → f c = none) (cs : List Call) :
    (cs.filter Call.lasts).filterMap f = cs.filterMap f := by
  rw [List.filterMap_filter]
  refine List.filterMap_congr fun c _ => ?_
  cases hc : c.lasts with
  | true => simp
  | false => simp [hf c hc]

theorem Call.eq_of_lasts {c : Call} (hc : c.lasts = false) :
    (∃ client channel action, c = .authorize client channel action) ∨ ∃ p, c = .send p := by
  cases c with
  | authorize client channel action => exact .inl ⟨client, channel, action, rfl⟩
  | send p => exact .inr ⟨p, rfl⟩
  | _ => cases hc

theorem published_filter_lasts (cs : List Call) :
    published (cs.filter Call.lasts) = published cs := by
  refine filterMap_filter_lasts (fun c hc => ?_) cs
  rcases Call.eq_of_lasts hc with ⟨client, channel, action, rfl⟩ | ⟨p, rfl⟩ <;> rfl

theorem eventsOf_filter_lasts (cs : List Call) : eventsOf (cs.filter Call.lasts) = eventsOf cs := by
  refine filterMap_filter_lasts (fun c hc => ?_) cs
  rcases Call.eq_of_lasts hc with ⟨client, channel, action, rfl⟩ | ⟨p, rfl⟩ <;> rfl

theorem eventsOf_made (acts : List Act) : eventsOf (made acts) = recorded acts := by
  induction acts with
  | nil => rfl
  | cons act acts ih =>
    cases act with
    | ask c =>
      cases c with
      | record e => exact congrArg (e :: ·) ih
      | _ => exact ih
    | hear c r => cases c <;> exact ih
    | _ => exact ih

/-- The list without what stands at the places `D`. -/
def spared {α : Type} (D : Finset ℕ) (l : List α) : List α :=
  (l.zipIdx.filter fun e => e.2 ∉ D).map (·.1)

def HoldsAt {α : Type} (D : Finset ℕ) (P : α → Prop) (l : List α) : Prop :=
  ∀ n ∈ D, ∀ a, l[n]? = some a → P a

section
variable {α β : Type} {D : Finset ℕ} {P : α → Prop} {l : List α}

theorem spared_concat (l : List α) (a : α) :
    spared D (l ++ [a]) = spared D l ++ if l.length ∈ D then [] else [a] := by
  simp only [spared, List.zipIdx_append, List.filter_append, List.map_append]
  congr 1
  split <;> simp [*]

theorem spared_map (f : α → β) (l : List α) : spared D (l.map f) = (spared D l).map f := by
  simp [spared, List.zipIdx_map, List.filter_map, Function.comp_def]

theorem HoldsAt.left {l' : List α} (h : HoldsAt D P (l ++ l')) : HoldsAt D P l := by
  intro n hn a ha
  obtain ⟨hlt, -⟩ := List.getElem?_eq_some_iff.1 ha
  exact h n hn a (by rwa [List.getElem?_append_left hlt])

theorem HoldsAt.last {a : α} (h : HoldsAt D P (l ++ [a])) (hl : l.length ∈ D) : P a :=
  h _ hl a (by simp)

end

namespace Rounds
variable {D : Finset ℕ} {r : Rounds} {act : Act}

def sparing (D : Finset ℕ) (r : Rounds) : Rounds := { r with past := spared D r.past }

def Amid (D : Finset ℕ) (r : Rounds) : Prop := r.current ≠ none ∧ r.past.length ∈ D

/-- The act belongs to one of the rounds `D` if the rounds have come as far as `r`. -/
def Within (D : Finset ℕ) (r : Rounds) : Act → Prop
  | .arrive _ => r.all.length ∈ D
  | _ => r.Amid D

structure Vain (D : Finset ℕ) (r : Rounds) : Prop where
  past : HoldsAt D Round.Fruitless r.past
  current : ∀ o, r.current = some o → r.past.length ∈ D →
    ∃ d, o.dealings <+: d ∧ (⟨o.arrival, d⟩ : Round).Fruitless

theorem all_of_none (hr : r.current = none) : r.all = r.past := by simp [all, hr]

theorem all_of_some {o : Round} (hr : r.current = some o) : r.all = r.past ++ [o] := by
  simp [all, hr]

theorem fruitless_of_mem {o : Round} (h : HoldsAt D Round.Fruitless r.all) (hr : r.current = some o)
    (hn : r.past.length ∈ D) : o.Fruitless := by
  rw [all_of_some hr] at h
  exact h.last hn

theorem vain_of_all (h : HoldsAt D Round.Fruitless r.all) : r.Vain D where
  past := h.left
  current := fun o ho hn => ⟨o.dealings, List.prefix_refl _, fruitless_of_mem h ho hn⟩

theorem Vain.of_after (h : (r.after act).Vain D) : r.Vain D := by
  cases act with
  | arrive | settle | halt | cut => exact vain_of_all h.past
  | ask | finish => exact h
  | hear c x =>
    refine ⟨h.past, fun o ho hn => ?_⟩
    obtain ⟨d, hd, hfruitless⟩ := h.current _ (by rw [after, ho]; rfl) hn
    exact ⟨d, (List.prefix_append _ _).trans hd, hfruitless⟩

theorem all_sparing (hout : ¬ r.Amid D) : (r.sparing D).all = spared D r.all := by
  cases hr : r.current with
  | none => simp [sparing, all, hr]
  | some o =>
    have hnot : r.past.length ∉ D := fun hn => hout ⟨by simp [hr], hn⟩
    simp [sparing, all, hr, spared_concat, hnot]

theorem spared_all_of_mem {o : Round} (hr : r.current = some o) (hn : r.past.length ∈ D) :
    spared D r.all = spared D r.past := by
  rw [all_of_some hr, spared_concat, if_pos hn, List.append_nil]

theorem after_spared (hout : ¬ r.Amid D) (hact : ¬ r.Within D act) :
    (r.sparing D).after act = (r.after act).sparing D ∧ ¬ (r.after act).Amid D := by
  cases act with
  | arrive a => exact ⟨by rw [after, after, all_sparing hout]; rfl, fun h => hact h.2⟩
  | settle | halt | cut =>
    exact ⟨by rw [after, after, all_sparing hout]; rfl, fun h => h.1 rfl⟩
  | ask | finish => exact ⟨rfl, hout⟩
  | hear c x => exact ⟨rfl, fun h => hout ⟨fun hnone => h.1 (by simp [after, hnone]), h.2⟩⟩

end Rounds

theorem filter_lasts_spared {D : Finset ℕ} (rs : List Round) (h : HoldsAt D Round.Fruitless rs) :
    ((spared D rs).flatMap Round.calls).filter Call.lasts =
      (rs.flatMap Round.calls).filter Call.lasts := by
  induction rs using List.reverseRecOn with
  | nil => rfl
  | append_singleton rs r ih =>
    rw [spared_concat, List.flatMap_append, List.flatMap_append, List.filter_append,
      List.filter_append, ih h.left]
    split
    · rename_i hn
      simp [(h.last hn).filter_lasts]
    · rfl

end DeviceGateway
