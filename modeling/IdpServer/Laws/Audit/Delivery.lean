import IdpServer.Laws.Audit.Flow

/-!
# Laws.Audit.Delivery — no audit event is lost or duplicated

A message is acknowledged only when its event is in the table or in the dead-letter stream, and the table has
one row at most for an event id (`delivered_once`).
-/

namespace IdpServer.Laws.Audit

open Conc Store Go IdpServer.Audit

/-- What is acknowledged is recorded, and event ids have one row each. -/
structure Delivered (env : AuditEnv) (w : AuditWorld) : Prop where
  acked : ∀ message ∈ w.stream.entries, w.stream.Acked message.id → Recorded env w message.values
  unique : w.rows.Pairwise fun row row' => env.sqlEq row.eventID row'.eventID = false

/-- What others may do: append messages and rows, and anything else to the rows but to remove them. -/
structure Others (env : AuditEnv) (w w' : AuditWorld) : Prop where
  stream : w.stream.Extends w'.stream
  grows : Grows w w'
  unique : w'.rows.Pairwise fun row row' => env.sqlEq row.eventID row'.eventID = false

variable {env : AuditEnv} {w : AuditWorld}

theorem Delivered.extends {w' : AuditWorld} (h : Delivered env w) (hstream : w.stream.Extends w'.stream)
    (hgrows : Grows w w') (hunique : w'.rows.Pairwise fun row row' => env.sqlEq row.eventID row'.eventID = false) :
    Delivered env w' := by
  refine ⟨fun message hmem hacked => ?_, hunique⟩
  obtain ⟨hmem, hacked⟩ := hstream.acked hmem hacked
  exact (h.acked message hmem hacked).grows hgrows

theorem Delivered.group {s : LogStream StreamValues} (h : Delivered env w) (hentries : s.entries = w.stream.entries)
    (hacked : ∀ message ∈ w.stream.entries, s.Acked message.id →
      w.stream.Acked message.id ∨ Recorded env w message.values) : Delivered env { w with stream := s } := by
  refine ⟨fun message hmem hack => ?_, h.unique⟩
  rw [hentries] at hmem
  rcases hacked message hmem hack with hold | hrecorded
  · exact h.acked message hmem hold
  · exact hrecorded

theorem unique_upsert (hunique : w.rows.Pairwise fun row row' => env.sqlEq row.eventID row'.eventID = false)
    (event : AuditEvent) :
    (w.upsert env event).rows.Pairwise fun row row' => env.sqlEq row.eventID row'.eventID = false := by
  unfold AuditWorld.upsert
  dsimp only
  split
  · refine List.pairwise_map.mpr (hunique.imp fun {row row'} h => ?_)
    split <;> split <;> exact h
  next hnew =>
    refine List.pairwise_append.mpr ⟨hunique, List.pairwise_singleton _ _, fun row hrow row' hrow' => ?_⟩
    obtain rfl := List.mem_singleton.mp hrow'
    exact Bool.eq_false_iff.mpr fun hof => hnew (List.any_eq_true.mpr ⟨row, hrow, hof⟩)

/-- **One command.** -/
theorem Delivered.step {task : AuditTask} {l : AuditLabel} {f : AuditWorld → AuditWorld}
    (h : Delivered env w) (hg : Grounded env task w l f) : Delivered env (f w) := by
  have hgrows := hg.grows
  cases hg with
  | enqueue now htask =>
    dsimp only at hgrows ⊢
    rcases enqueueAuditEvent_eq _ _ _ _ w with heq | ⟨dedup, heq⟩ <;> rw [heq] at hgrows ⊢
    · exact h
    · exact h.extends (LogStream.extends_add _ _) hgrows h.unique
  | createGroup => exact h.group rfl fun message hmem hacked => .inl (LogStream.acked_createGroup hmem hacked)
  | readGroup cfg =>
    exact h.group (LogStream.readGroup_entries ..) fun message hmem hacked =>
      .inl (LogStream.acked_readGroup hmem hacked)
  | autoClaim cfg start =>
    exact h.group (LogStream.autoClaim_entries ..) fun message _ hacked => .inl (LogStream.acked_autoClaim hacked)
  | ack hmem hrecorded =>
    refine h.group rfl fun message hmem' hacked => ?_
    rcases LogStream.acked_ack hacked with hold | hid
    · exact .inl hold
    · obtain rfl := LogStream.eq_of_id hmem' hmem hid
      exact .inr hrecorded
  | addDLQ hmem hcarries => exact h.extends (.refl _) hgrows h.unique
  | replay hmem => exact h.extends (LogStream.extends_add _ _) hgrows h.unique
  | upsert hevent => exact h.extends (.refl _) hgrows (unique_upsert h.unique _)
  | retry hl g => exact h.extends (.refl _) hgrows h.unique

section Runs

variable {ι : Type}

def delivering (env : AuditEnv) : Discipline ι AuditWorld AuditLabel where
  inv m := Delivered env m.shared
  mono m m' := Grows m.shared m'.shared
  mono_refl _ := ⟨fun _ h => h, fun _ h => h, fun row h => ⟨row, h, rfl⟩⟩
  mono_trans hab hbc := ⟨fun e h => hbc.stream e (hab.stream e h), fun e h => hbc.dlq e (hab.dlq e h),
    fun row hrow => by
      obtain ⟨row', hrow', hid⟩ := hab.rows row hrow
      obtain ⟨row'', hrow'', hid'⟩ := hbc.rows row' hrow'
      exact ⟨row'', hrow'', hid'.trans hid⟩⟩

end Runs

/-! ## One message -/

def plainEnv : AuditEnv where
  sqlEq a b := a = b
  sqlLike _ _ := true
  jsonColumn text := text
  formatTime := formatInt
  parseTime := parseInt
  parseIntError _ := ""
  parseTimeError _ := ""
  storeError := ""
  syncWrite := false
  dedupTTL := 0

def loginEvent : AuditEvent :=
  ⟨0, "e", "t", none, some 7, "s", none, "", "", "", 10 * second⟩

def oneMessage : AuditWorld :=
  { AuditWorld.empty 0 with
    stream := (LogStream.empty.add 0 (streamFields plainEnv 0 loginEvent)).createGroup }

def oneRound : AuditTask := .readLoop ⟨"c", 0, 0, 0, 0⟩ "u" 1

theorem delivered_oneMessage : Delivered plainEnv oneMessage := by
  refine ⟨fun message hmem hacked => ?_, .nil⟩
  obtain ⟨g, hg, -⟩ := LogStream.acked_createGroup (s := LogStream.empty.add 0 _) hmem hacked
  cases hg

end IdpServer.Laws.Audit
