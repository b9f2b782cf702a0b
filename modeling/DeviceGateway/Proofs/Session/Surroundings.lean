import DeviceGateway.Proofs.Bus.FanOut
import DeviceGateway.Proofs.Bus.Posting
import DeviceGateway.Services

/-!
# How those that are called may answer

The broker does at once what it is asked to. Authenticator, policy, publisher, event log and
connection may reply anything, early or late, and whatever they keep may change with it. None of
them changes the broker or the queues, and the bus is only used.
-/

namespace DeviceGateway

/-- The caller waits for the reply and can be cut off then. Other calls are over at once. -/
def Call.isAwaited : Call → Bool
  | .identify _ | .authorize _ _ _ | .publish _ _ | .record _ | .send _ => true
  | .register _ _ _ | .deregister _ _ | .deregisterFilter _ _ _ | .deregisterOwner _ => false

namespace Services

/-- The services `s` reply to a call and are the last services afterwards. -/
inductive Answers (s : Services) : (c : Call) → c.Reply → Services → Prop
  | awaited {c : Call} (hc : c.isAwaited = true) (r : c.Reply) {t : Services}
      (hbus : Bus.Uses s.bus t.bus) (hbroker : t.broker = s.broker) (hqueues : t.queues = s.queues)
      (hsettings : t.settings = s.settings) : Answers s c r t
  | atOnce {c : Call} (hc : c.isAwaited = false) {now : Nat} {r : c.Reply} {t : Services}
      (h : s.answer now c = (t, .answer r)) : Answers s c r t

theorem answers_unchanged (s : Services) {c : Call} (hc : c.isAwaited = true) (r : c.Reply) :
    s.Answers c r s :=
  .awaited hc r .refl rfl rfl rfl

theorem answers_of_answer {s t : Services} {now : Nat} {c : Call} {r : c.Reply}
    (h : s.answer now c = (t, .answer r)) : s.Answers c r t := by
  cases c with
  | publish subject message =>
    cases h
    exact .awaited rfl _ (Bus.uses_publish s.bus subject message) rfl rfl rfl
  | register | deregister | deregisterFilter | deregisterOwner => exact .atOnce rfl h
  | identify | authorize | record | send =>
    simp only [answer, Prod.mk.injEq] at h
    obtain ⟨rfl, -⟩ := h
    exact .awaited rfl _ .refl rfl rfl rfl

variable {s t : Services} {c : Call} {r : c.Reply}

theorem Answers.queues (h : s.Answers c r t) : t.queues = s.queues := by
  cases h with
  | awaited _ _ _ _ hqueues => exact hqueues
  | atOnce hc h =>
    cases c with
    | register | deregister | deregisterFilter | deregisterOwner => cases h; rfl
    | _ => cases hc

theorem Answers.settings (h : s.Answers c r t) : t.settings = s.settings := by
  cases h with
  | awaited _ _ _ _ _ hsettings => exact hsettings
  | atOnce hc h =>
    cases c with
    | register | deregister | deregisterFilter | deregisterOwner => cases h; rfl
    | _ => cases hc

theorem Answers.bus (h : s.Answers c r t) : Bus.Uses s.bus t.bus := by
  cases h with
  | awaited _ _ hbus => exact hbus
  | atOnce hc h =>
    cases c with
    | register | deregister | deregisterFilter | deregisterOwner => cases h; exact .refl
    | _ => cases hc

theorem Answers.mem_registrations (h : s.Answers c r t) {x : Registration}
    (hx : x ∈ t.broker.registrations) :
    x ∈ s.broker.registrations ∨ ∃ owner entries queue, c = .register owner entries queue ∧
      ∃ e ∈ entries, x = ⟨owner, e.1, e.2, queue⟩ := by
  cases h with
  | awaited _ _ _ hbroker => exact .inl (hbroker ▸ hx)
  | atOnce hc h =>
    cases c with
    | register owner entries queue =>
      cases h
      rcases Broker.mem_registerAll hx with hx | hx
      · exact .inl hx
      · exact .inr ⟨owner, entries, queue, rfl, hx⟩
    | deregister =>
      cases h
      exact .inl (Broker.mem_of_mem_deregister hx)
    | deregisterFilter =>
      cases h
      exact .inl (Broker.mem_of_mem_deregisterFilter hx)
    | deregisterOwner =>
      cases h
      exact .inl (Broker.mem_deregisterOwner.1 hx).1
    | _ => cases hc

theorem Answers.owner_ne {owner : String} {r : (Call.deregisterOwner owner).Reply}
    (h : s.Answers (.deregisterOwner owner) r t) {x : Registration}
    (hx : x ∈ t.broker.registrations) : x.owner ≠ owner := by
  cases h with
  | awaited hc => cases hc
  | atOnce _ h =>
    cases h
    exact (Broker.mem_deregisterOwner.1 hx).2

theorem Answers.keyed (h : s.Answers c r t) (hk : s.broker.Keyed) : t.broker.Keyed := by
  cases h with
  | awaited _ _ _ hbroker => exact hbroker ▸ hk
  | atOnce hc h =>
    cases c with
    | register => cases h; exact hk.registerAll _ _ _
    | deregister => cases h; exact hk.filter _
    | deregisterFilter => cases h; exact hk.deregisterFilter _ _ _
    | deregisterOwner => cases h; exact hk.filter _
    | _ => cases hc

end Services

end DeviceGateway
