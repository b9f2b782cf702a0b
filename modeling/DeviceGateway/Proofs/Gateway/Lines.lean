import DeviceGateway.Proofs.Gateway.Lifecycle
import DeviceGateway.Proofs.Session.Rounds

/-!
# The lines of a gateway

Whatever else goes on in a gateway, each of its lines runs as a line does in surroundings that may
change at any time: all that is fixed is the settings.
-/

namespace DeviceGateway

namespace Line
variable {queue : QueueId} {s t : Services} {l l' : Line} {act : Act}

theorem Step.standing_ne (hs : Step queue s l act t l') (hl : l.standing ≠ .serving) :
    l'.standing ≠ .serving := by
  cases hs with
  | arrive m a hserving | settle m hserving | halt m hserving | ret hserving | cut m hserving =>
    exact absurd hserving hl
  | ask | hear => exact hl
  | part | drop => simp

end Line

namespace RunningGateway
variable {ι κ : Type} [DecidableEq ι] [DecidableEq κ] {g : Wiring ι} {w₀ w v : RunningGateway ι κ}
variable {m : Move ι} {tr : Trace ι κ} {k : ι}

theorem Step.settings_eq (hs : Step g w m v) : v.services.settings = w.services.settings := by
  cases hs with
  | line k hl => exact hl.settings_eq
  | answer j hj ht => exact ht.settings
  | elsewhere hbus hbroker hsettings hqueues => exact hsettings
  | _ => rfl

theorem Step.line_cases (hs : Step g w m v) (k : ι) :
    (∃ act t, m = .line k act ∧
      Line.Step (g.queue k) w.services (w.lines k) act t (v.lines k) ∧ v.services = t) ∨
    m.act? k = none ∧ (v.lines k = w.lines k ∨
      (w.lines k).writer ≠ .absent ∧
        ∃ writer, v.lines k = { w.lines k with writer := writer }) := by
  have hwriter : ∀ (j : ι) (writer : Writer), (w.lines j).writer ≠ .absent →
      (w.setWriter j writer).lines k = w.lines k ∨ (w.lines k).writer ≠ .absent ∧
        ∃ writer', (w.setWriter j writer).lines k = { w.lines k with writer := writer' } := by
    intro j writer hj
    by_cases hjk : j = k
    · subst hjk
      exact .inr ⟨hj, writer, by simp [setWriter]⟩
    · exact .inl (by simp [setWriter, Function.update_of_ne (Ne.symm hjk)])
  cases hs with
  | @line j act t l hl =>
    by_cases hjk : j = k
    · subst hjk
      exact .inl ⟨act, t, rfl, by simpa using hl, rfl⟩
    · exact .inr ⟨by simp [Move.act?, hjk], .inl (by simp [Function.update_of_ne (Ne.symm hjk)])⟩
  | deliver j hw =>
    rw [setWriter_lines_setQueue]
    exact .inr ⟨rfl, hwriter j .sending (by simp [hw])⟩
  | sent j hw => exact .inr ⟨rfl, hwriter j .idle (by simp [hw])⟩
  | _ => exact .inr ⟨rfl, .inl rfl⟩

theorem Run.settings_eq (hr : Run g w₀ tr w) : w.services.settings = w₀.services.settings := by
  induction hr with
  | start => rfl
  | step _ hs ih => exact hs.settings_eq.trans ih

theorem Run.line (hr : Run g w₀ tr w) (k : ι) :
    Line.Run w₀.services.settings (g.queue k) (w₀.lines k) (acts k tr) (w.lines k) := by
  induction hr with
  | start => exact .start
  | step hr hs ih =>
    rw [acts_concat]
    rcases hs.line_cases k with ⟨act, t, rfl, hline, -⟩ | ⟨hact, hsame | ⟨hw, writer, hwriter⟩⟩
    · simpa [Move.act?] using ih.step hr.settings_eq hline
    · rw [hact, Option.toList_none, List.append_nil, hsame]
      exact ih
    · rw [hact, Option.toList_none, List.append_nil, hwriter]
      exact ih.write hw writer

end RunningGateway

end DeviceGateway
