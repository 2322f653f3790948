import TriNet.Lib.Lines
import TriNet.CallApi.Traffic
import TriNet.CallApi.OutboxMoves

namespace TriNet.CallApi

open Lib Lib.BigEndian Lib.Runs

variable {env : Env} {db db' : Db}

def Db.Known (db : Db) : OutboxKind → String → Prop
  | .callInvite, objectId => (db.calls.find objectId).isSome
  | .directMessage, objectId => ∃ m ∈ db.directMessages.rows, toString m.messageId = objectId

theorem lt_nextMessageId {ids : List Nat} {n : Nat} (h : n ∈ ids) : n < nextMessageId ids :=
  Nat.lt_succ_of_le (foldr_max_le_iff.mp (Nat.le_refl _) n h)

theorem Traffic.known (h : Traffic env db db') {eventKind : OutboxKind} {objectId : String}
    (hknown : db.Known eventKind objectId) : db'.Known eventKind objectId := by
  cases eventKind with
  | callInvite =>
      rw [Db.Known] at hknown ⊢
      cases h with
      | keep hcalls =>
          have hsome := congrArg Option.isSome (hcalls objectId)
          rwa [Option.isSome_map, Option.isSome_map, hknown] at hsome
      | place hinsert =>
          rw [Table.find_insert hinsert]
          split
          · rfl
          · exact hknown
      | post hinsert hid hnew henvelopes hcalls => rwa [hcalls]
  | directMessage =>
      obtain ⟨m, hm, hid⟩ := hknown
      refine ⟨m, ?_, hid⟩
      cases h with
      | keep hcalls hmessages => rwa [hmessages]
      | place hinsert hclient hnew hmessages => rwa [hmessages]
      | post hinsert =>
          rw [(Table.insert_eq_some hinsert).2]
          exact List.mem_append_left _ hm

theorem Enqueues.new {eventKind : OutboxKind} {objectId : String}
    (h : Enqueues env eventKind objectId db.apnsOutbox db'.apnsOutbox)
    (hunknown : ¬ db.Known eventKind objectId)
    (hknown : db'.Known eventKind objectId) :
    ∃ new, db'.apnsOutbox.rows = db.apnsOutbox.rows ++ new ∧ (new.map OutboxRow.triple).Nodup ∧
      ∀ r ∈ new, r.Queued env r.eventKind r.objectId ∧ ¬ db.Known r.eventKind r.objectId ∧
        db'.Known r.eventKind r.objectId := by
  obtain ⟨new, hrows, hqueued, hnodup⟩ := h.rows
  refine ⟨new, hrows, hnodup, ?_⟩
  intro r hr
  have hq := hqueued r hr
  rw [hq.kind, hq.object]
  exact ⟨hq, hunknown, hknown⟩

/-- Every event that enters the outbox is about a call or a message that has
just come to exist. -/
theorem Traffic.outbox (h : Traffic env db db') :
    ∃ new, db'.apnsOutbox.rows = db.apnsOutbox.rows ++ new ∧ (new.map OutboxRow.triple).Nodup ∧
      ∀ r ∈ new, r.Queued env r.eventKind r.objectId ∧ ¬ db.Known r.eventKind r.objectId ∧
        db'.Known r.eventKind r.objectId := by
  cases h with
  | keep hcalls hmessages henvelopes houtbox => exact ⟨[], by simp [houtbox]⟩
  | place hinsert hclient hnew hmessages henvelopes houtbox =>
      apply houtbox.new
      · rw [Db.Known, (Table.insert_eq_some hinsert).1]
        exact Bool.false_ne_true
      · rw [Db.Known, Table.find_insert hinsert, if_pos rfl]
        rfl
  | post hinsert hid hnew henvelopes hcalls houtbox =>
      apply houtbox.new
      · rintro ⟨m, hm, hsame⟩
        have hlt := lt_nextMessageId (List.mem_map_of_mem (f := DirectMessageRow.messageId) hm)
        rw [← hid, Lines.eq_of_repr_eq hsame] at hlt
        exact Nat.lt_irrefl _ hlt
      · exact ⟨_, by rw [(Table.insert_eq_some hinsert).2]; simp, rfl⟩

namespace Service

variable {ι : Type} [DecidableEq ι]

inductive Step (env : Env) (s : Service ι) : Event ι → Service ι → Prop
  | handler (e : CallApi.Event) : Step env s (.handler e) { s with server := s.server.step env e }
  | stay (e : Event ι) : Step env s e s
  | poll {w : ι} (hfree : (s.workers w).claim = none) :
      Step env s (.poll w) { s with workers := Function.update s.workers w (.polled s.time) }
  | miss {w : ι} {eventKind : OutboxKind} {now : Int} (hpolled : s.workers w = .polled now) :
      Step env s (.claim w eventKind) { s with workers := Function.update s.workers w .idle }
  | claim {w : ι} {eventKind : OutboxKind} {now : Int} {r : OutboxRow}
      (hpolled : s.workers w = .polled now)
      (hr : s.outbox.find r.eventId = some r) (hdue : claimIsDue s.owner now r = true)
      (hrecoverable : claimIsRecoverable s.owner now r = true) :
      Step env s (.claim w eventKind) { s with
        server := { s.server with
          db := { s.server.db with apnsOutbox := setClaim s.owner now s.outbox r.eventId } }
        workers := Function.update s.workers w (.holding (claimedEvent s.owner now r)) }
  | report {w : ι} {event : ApnsOutboxEvent} (hholding : s.workers w = .holding event) :
      Step env s (.report w) { s with workers := Function.update s.workers w (.reporting event s.time) }
  | settle {w : ι} {event : ApnsOutboxEvent} {now : Int} (outcome : Outcome)
      (hreporting : s.workers w = .reporting event now) :
      Step env s (.settle w outcome) { s with
        server := { s.server with db := outcome.apply env event now s.server.db }
        workers := Function.update s.workers w .idle }
  | restart (owner : String) :
      Step env s (.restart owner) { server := { s.server with waiting := [], pending := [] }, owner }

theorem step_spec (env : Env) (s : Service ι) (e : Event ι) : Step env s e (step env s e) := by
  cases e with
  | handler e => exact .handler e
  | poll w =>
      rw [step]
      split
      · next hfree => exact .poll hfree
      · exact .stay _
  | claim w eventKind =>
      rw [step]
      split
      · next now hpolled =>
          obtain hmiss | ⟨r, hr, hdue, hrecoverable, hclaim⟩ :=
            claimDue_spec s.owner now s.outbox eventKind
          · rw [hmiss]
            exact .miss hpolled
          · rw [hclaim]
            exact .claim hpolled hr hdue hrecoverable
      · exact .stay _
  | report w =>
      rw [step]
      split
      · next event hholding => exact .report hholding
      · exact .stay _
  | settle w outcome =>
      rw [step]
      split
      · next event now hreporting => exact .settle outcome hreporting
      · exact .stay _
  | restart owner => exact .restart owner

theorem step_handler_or_frame (env : Env) (s : Service ι) (e : Event ι) :
    (∃ e', e = .handler e') ∨
      ∃ devices outbox, (step env s e).server.db =
        { s.server.db with devices := devices, apnsOutbox := outbox } := by
  have h := step_spec env s e
  generalize step env s e = t at h ⊢
  cases h with
  | handler e => exact .inl ⟨e, rfl⟩
  | stay | poll | miss | report | restart => exact .inr ⟨s.server.db.devices, s.server.db.apnsOutbox, rfl⟩
  | claim => exact .inr ⟨s.server.db.devices, _, rfl⟩
  | settle outcome =>
      obtain ⟨devices, outbox, hdb, _⟩ := Outcome.apply_cases env _ _ s.server.db outcome
      exact .inr ⟨devices, outbox, hdb⟩

theorem step_handler_or_queued (env : Env) (s : Service ι) (e : Event ι) :
    (∃ e', e = .handler e') ∨
      ∀ k r', (step env s e).outbox.find k = some r' → ∃ r, s.outbox.find k = some r ∧
        r'.triple = r.triple := by
  have h := step_spec env s e
  generalize step env s e = t at h ⊢
  cases h with
  | handler e => exact .inl ⟨e, rfl⟩
  | stay | poll | miss | report | restart => exact .inr (fun k r hr => ⟨r, hr, rfl⟩)
  | claim hpolled hr hdue =>
      right
      intro k r' hr'
      rw [outbox, find_setClaim hr hdue] at hr'
      split at hr'
      · next hk =>
          rw [hk, ← Option.some.inj hr']
          exact ⟨_, hr, rfl⟩
      · exact ⟨r', hr', rfl⟩
  | settle outcome =>
      right
      intro k r' hr'
      obtain ⟨r, hr, rfl | ⟨_, hreleased⟩⟩ := outcome.find_apply_eq_some hr'
      · exact ⟨_, hr, rfl⟩
      · exact ⟨r, hr, hreleased.triple⟩

theorem step_known (env : Env) (s : Service ι) (e : Event ι) {eventKind : OutboxKind} {objectId : String}
    (h : s.server.db.Known eventKind objectId) : (step env s e).server.db.Known eventKind objectId := by
  obtain ⟨e, rfl⟩ | ⟨_, _, hdb⟩ := step_handler_or_frame env s e
  · exact (s.server.step_traffic env e).known h
  · rw [hdb]
    cases eventKind <;> exact h

def entered (env : Env) (s : Service ι) (e : Event ι) : List (OutboxKind × String × String) :=
  ((step env s e).outbox.rows.filter (fun r => (s.outbox.find r.eventId).isNone)).map OutboxRow.triple

theorem entered_spec (env : Env) (s : Service ι) (e : Event ι) :
    (entered env s e).Nodup ∧ ∀ t ∈ entered env s e,
      ¬ s.server.db.Known t.1 t.2.1 ∧ (step env s e).server.db.Known t.1 t.2.1 := by
  obtain ⟨e, rfl⟩ | hrows := step_handler_or_queued env s e
  · obtain ⟨new, hrows, hnodup, hnew⟩ := (s.server.step_traffic env e).outbox
    have hold : s.outbox.rows.filter (fun r => (s.outbox.find r.eventId).isNone) = [] := by
      apply List.filter_eq_nil_iff.mpr
      intro r hr
      rw [Table.mem_rows.mp hr]
      exact Bool.false_ne_true
    have hentered : (entered env s (.handler e)).Sublist (new.map OutboxRow.triple) := by
      have hafter : (step env s (.handler e)).outbox.rows = s.outbox.rows ++ new := hrows
      rw [entered, hafter, List.filter_append, hold, List.nil_append]
      exact List.filter_sublist.map _
    refine ⟨hnodup.sublist hentered, ?_⟩
    intro t ht
    obtain ⟨r, hr, rfl⟩ := List.mem_map.mp (hentered.subset ht)
    exact (hnew r hr).2
  · have hnone : entered env s e = [] := by
      rw [entered, List.map_eq_nil_iff]
      apply List.filter_eq_nil_iff.mpr
      intro r hr
      obtain ⟨r₀, hr₀, _⟩ := hrows r.eventId r (Table.mem_rows.mp hr)
      rw [hr₀]
      exact Bool.false_ne_true
    rw [hnone]
    exact ⟨List.nodup_nil, fun _ ht => by cases ht⟩

def history (env : Env) (s : Service ι) (es : List (Event ι)) : List (OutboxKind × String × String) :=
  (trace (step env) s es).flatMap (fun (s, e) => entered env s e)

theorem history_cons (env : Env) (s : Service ι) (e : Event ι) (es : List (Event ι)) :
    history env s (e :: es) = entered env s e ++ history env (step env s e) es := rfl

theorem history_nodup (env : Env) (s : Service ι) (es : List (Event ι)) :
    (history env s es).Nodup ∧ ∀ t ∈ history env s es, ¬ s.server.db.Known t.1 t.2.1 := by
  induction es generalizing s with
  | nil => exact ⟨List.nodup_nil, fun _ ht => by cases ht⟩
  | cons e es ih =>
      obtain ⟨hentered, hfirst⟩ := entered_spec env s e
      obtain ⟨hrest, hlater⟩ := ih (step env s e)
      rw [history_cons]
      refine ⟨hentered.append hrest ?_, ?_⟩
      · intro t ht hlate
        exact hlater t hlate (hfirst t ht).2
      · intro t ht
        obtain ht | ht := List.mem_append.mp ht
        · exact (hfirst t ht).1
        · exact fun hknown => hlater t ht (step_known env s e hknown)

end Service

end TriNet.CallApi
