import DeviceGateway.EventLog
import DeviceGateway.Proofs.Json.Controls
import DeviceGateway.Proofs.Wire.RoundTrip

/-!
# One event a line

The bytes of a value hold no line end, whatever the texts in it hold. So the log of any events, cut
at its line ends, has one piece for each event and nothing after the last one; each piece decodes to
its event, and no other events have the same log.
-/

namespace DeviceGateway

namespace Wire
variable {α : Type} [Wire α]

theorem noControls_encode {depth : Nat} [Lawful α depth] (a : α) : Json.NoControls (encode a) :=
  (written a).noControls

theorem lineEnd_not_mem_encode {depth : Nat} [Lawful α depth] (a : α) : 0x0A ∉ encode a :=
  fun h => absurd (noControls_encode a _ h) (by decide)

end Wire

theorem splitOn_eventLog (events : List Event) :
    (eventLog events).splitOn 0x0A = events.map Wire.encode ++ [[]] := by
  induction events with
  | nil => rfl
  | cons e events ih =>
    have hline : eventLog (e :: events) = Wire.encode e ++ 0x0A :: eventLog events := by
      simp [eventLog, Event.line]
    have hclean : ∀ b ∈ Wire.encode e, (b == 0x0A) = false := by
      intro b hb
      refine beq_eq_false_iff_ne.2 fun hend => ?_
      exact Wire.lineEnd_not_mem_encode e (hend ▸ hb)
    rw [List.splitOn] at ih ⊢
    rw [hline, List.splitOnP_append_cons_of_forall_mem hclean _ (beq_self_eq_true _), ih]
    rfl

/-- The log of events tells them all, in the order of their recording, and nothing else. -/
theorem events_match_lines (events : List Event) :
    (eventLog events).splitOn 0x0A = events.map Wire.encode ++ [[]] ∧
    ((eventLog events).splitOn 0x0A).dropLast.map Wire.decode? = events.map some ∧
    ∀ others, eventLog others = eventLog events ↔ others = events := by
  have hdecode (es : List Event) :
      ((eventLog es).splitOn 0x0A).dropLast.map Wire.decode? = es.map some := by
    rw [splitOn_eventLog, List.dropLast_concat, List.map_map]
    exact List.map_congr_left fun e _ => Wire.decode?_encode (room_none 1) e
  refine ⟨splitOn_eventLog events, hdecode events, fun others => ⟨fun h => ?_, fun h => by rw [h]⟩⟩
  have hsome : others.map some = events.map some := by
    rw [← hdecode others, ← hdecode events, h]
  exact (List.map_inj_right fun _ _ => Option.some.inj).1 hsome

example : (eventLog [⟨.connect, ⟨"a\nb"⟩, none, some "\n", .mqtt, "\"\r\n", 0⟩]).count 0x0A = 1 := by
  cbv

end DeviceGateway
