import TriNet.CallApi.Footprints

namespace TriNet.CallApi

open Lib Lib.BigEndian Lib.Runs

variable {env : Env} {auth : AuthenticatedDevice} {draw : Draw} {db db' : Db}

structure CallState where
  call : Option CallRow
  target : String → Option CallStatus

def Db.callState (db : Db) (callId : String) : CallState where
  call := db.calls.find callId
  target deviceId := (db.callTargets.find (callId, deviceId)).map CallTargetRow.state

def CallRow.close (call : CallRow) (next : CallStatus) (now : Int) : CallRow :=
  { call with status := next, endedAt := some now }

def CallRow.answerBy (call : CallRow) (deviceId : String) (now : Int) : CallRow :=
  { call with status := .active, answeredAt := some now, answeredDeviceId := some deviceId }

/-- The life of one call on its own. Other calls and the rest of the database
play no part in it. -/
inductive CallStep (s s' : CallState) : Prop
  | stay (h : s' = s)
  | expire {call : CallRow} (now : Int) (hcall : s.call = some call)
      (hring : call.status = .ringing) (hcall' : s'.call = some (call.close .missed now))
      (htarget' : ∀ d,
        s'.target d = (s.target d).map (fun state => if state = .ringing then .ended else state))
  | answer {call : CallRow} (deviceId : String) (now : Int) (hcall : s.call = some call)
      (hring : call.status = .ringing) (htarget : (s.target deviceId).isSome)
      (hcall' : s'.call = some (call.answerBy deviceId now))
      (htarget' : ∀ d, s'.target d = (s.target d).map (fun _ => if d = deviceId then .active else .ended))
  | decline {call : CallRow} (deviceId : String) (hcall : s.call = some call)
      (hring : call.status = .ringing)
      (hcall' : s'.call = some call) (hleft : ∃ d, s'.target d = some .ringing)
      (htarget' : ∀ d, s'.target d =
        (s.target d).map (fun state => if d = deviceId ∧ state = .ringing then .declined else state))
  | declineLast {call : CallRow} (deviceId : String) (now : Int) (hcall : s.call = some call)
      (hring : call.status = .ringing) (hcall' : s'.call = some (call.close .declined now))
      (hleft : ∀ d, s'.target d ≠ some .ringing)
      (htarget' : ∀ d, s'.target d =
        (s.target d).map (fun state => if d = deviceId ∧ state = .ringing then .declined else state))
  | close {call : CallRow} {next : CallStatus} (now : Int) (hcall : s.call = some call)
      (hnext : call.status = .ringing ∧ next = .cancelled ∨ call.status = .active ∧ next = .ended)
      (hcall' : s'.call = some (call.close next now))
      (htarget' : ∀ d, s'.target d = (s.target d).map (fun _ => .ended))
  | place {call : CallRow} {ids : List String} (hcall : s.call = none) (hring : call.status = .ringing)
      (hanswered : call.answeredDeviceId = none) (hended : call.endedAt = none) (hids : ids ≠ [])
      (hcall' : s'.call = some call)
      (htarget' : ∀ d, s'.target d = if d ∈ ids then some .ringing else s.target d)

def StatusMove (status next : CallStatus) : Prop :=
  next = status ∨
    (status = .ringing ∧ (next = .active ∨ next = .declined ∨ next = .cancelled ∨ next = .missed)) ∨
    (status = .active ∧ next = .ended)

/-- How the status of a call, its answering device, its end and the states of
its targets fit together. -/
structure CallRow.Consistent (call : CallRow) (target : String → Option CallStatus) : Prop where
  placed : call.status ≠ .idle
  ringing : call.status = .ringing →
    (∃ d, target d = some .ringing) ∧ (∀ d, target d ≠ some .active) ∧ call.answeredDeviceId = none
  active : call.status = .active →
    ∃ d, call.answeredDeviceId = some d ∧ target d = some .active ∧
      ∀ other state, other ≠ d → target other = some state → state = .ended
  terminal : InternetCall.callIsTerminal call.status = true → ∀ d, target d ≠ some .ringing ∧
    target d ≠ some .active
  ended : call.endedAt.isSome = InternetCall.callIsTerminal call.status

def CallState.Consistent (s : CallState) : Prop :=
  (s.call = none → ∀ d, s.target d = none) ∧ ∀ call, s.call = some call → call.Consistent s.target

theorem CallState.consistent_of_call {s : CallState} {call : CallRow} (hcall : s.call = some call)
    (h : call.Consistent s.target) : s.Consistent := by
  refine ⟨?_, ?_⟩
  · intro hnone
    rw [hcall] at hnone
    cases hnone
  · intro other hother
    rw [hcall] at hother
    cases hother
    exact h

theorem CallStep.status_move {s s' : CallState} (h : CallStep s s') {call : CallRow}
    (hcall : s.call = some call) :
    ∃ call', s'.call = some call' ∧ StatusMove call.status call'.status := by
  cases h with
  | stay h => exact ⟨call, h ▸ hcall, .inl rfl⟩
  | expire now hold hring hcall' | answer deviceId now hold hring htarget hcall'
  | declineLast deviceId now hold hring hcall' =>
      rw [hcall] at hold
      cases hold
      exact ⟨_, hcall', .inr (.inl ⟨hring, by simp [CallRow.close, CallRow.answerBy]⟩)⟩
  | decline deviceId hold hring hcall' =>
      rw [hcall] at hold
      cases hold
      exact ⟨call, hcall', .inl rfl⟩
  | close now hold hnext hcall' =>
      rw [hcall] at hold
      cases hold
      obtain ⟨hstatus, rfl⟩ | ⟨hstatus, rfl⟩ := hnext
      · exact ⟨_, hcall', .inr (.inl ⟨hstatus, by simp [CallRow.close]⟩)⟩
      · exact ⟨_, hcall', .inr (.inr ⟨hstatus, rfl⟩)⟩
  | place hnone =>
      rw [hcall] at hnone
      cases hnone

theorem CallRow.Consistent.of_closed {call : CallRow} {next : CallStatus}
    {target : String → Option CallStatus}
    (now : Int) (hnext : InternetCall.callIsTerminal next = true)
    (htarget : ∀ d, target d ≠ some .ringing ∧ target d ≠ some .active) :
    (call.close next now).Consistent target where
  placed := by rintro rfl; cases hnext
  ringing := by rintro rfl; cases hnext
  active := by rintro rfl; cases hnext
  terminal _ := htarget
  ended := hnext.symm

theorem CallRow.Consistent.of_answered {call : CallRow} {target : String → Option CallStatus}
    (deviceId : String)
    (now : Int) (hended : call.endedAt.isSome = false) (hactive : target deviceId = some .active)
    (hothers : ∀ other state, other ≠ deviceId → target other = some state → state = .ended) :
    (call.answerBy deviceId now).Consistent target where
  placed := by simp [CallRow.answerBy]
  ringing := by simp [CallRow.answerBy]
  active _ := ⟨deviceId, rfl, hactive, hothers⟩
  terminal := by simp [CallRow.answerBy, InternetCall.callIsTerminal]
  ended := hended

theorem CallRow.Consistent.of_ringing {call : CallRow} {target : String → Option CallStatus}
    (hring : call.status = .ringing) (hended : call.endedAt.isSome = false)
    (hanswered : call.answeredDeviceId = none)
    (hsome : ∃ d, target d = some .ringing) (hactive : ∀ d, target d ≠ some .active) :
    call.Consistent target where
  placed := by simp [hring]
  ringing _ := ⟨hsome, hactive, hanswered⟩
  active := by simp [hring]
  terminal := by simp [hring, InternetCall.callIsTerminal]
  ended := by simp [hring, hended, InternetCall.callIsTerminal]

theorem CallRow.Consistent.not_ended {call : CallRow} {target : String → Option CallStatus}
    (h : call.Consistent target)
    (hring : call.status = .ringing) : call.endedAt.isSome = false := by
  rw [h.ended, hring]
  rfl

theorem map_ne_active {state : Option CallStatus} {f : CallStatus → CallStatus} (h : state ≠ some .active)
    (hf : ∀ x, f x = .active → x = .active) : state.map f ≠ some .active := by
  intro hmap
  obtain ⟨x, rfl, hx⟩ := Option.map_eq_some_iff.mp hmap
  exact h (by rw [hf x hx])

theorem CallStep.consistent {s s' : CallState} (h : CallStep s s') (hs : s.Consistent) :
    s'.Consistent := by
  cases h with
  | stay h => rwa [h]
  | expire now hcall hring hcall' htarget' =>
      obtain ⟨_, hactive, _⟩ := (hs.2 _ hcall).ringing hring
      apply CallState.consistent_of_call hcall'
      apply CallRow.Consistent.of_closed now rfl
      intro d
      rw [htarget']
      refine ⟨?_, map_ne_active (hactive d) (by intro x; split <;> simp)⟩
      cases s.target d with
      | none => simp
      | some state => cases state <;> simp
  | answer deviceId now hcall hring htarget hcall' htarget' =>
      apply CallState.consistent_of_call hcall'
      apply CallRow.Consistent.of_answered deviceId now ((hs.2 _ hcall).not_ended hring)
      · obtain ⟨state, hstate⟩ := Option.isSome_iff_exists.mp htarget
        simp [htarget', hstate]
      · intro other state hother hstate
        rw [htarget', Option.map_eq_some_iff] at hstate
        obtain ⟨_, _, rfl⟩ := hstate
        rw [if_neg hother]
  | decline deviceId hcall hring hcall' hleft htarget' =>
      have hold := hs.2 _ hcall
      obtain ⟨_, hactive, hanswered⟩ := hold.ringing hring
      apply CallState.consistent_of_call hcall'
      apply CallRow.Consistent.of_ringing hring (hold.not_ended hring) hanswered hleft
      intro d
      rw [htarget']
      exact map_ne_active (hactive d) (by intro x; split <;> simp)
  | declineLast deviceId now hcall hring hcall' hleft htarget' =>
      obtain ⟨_, hactive, _⟩ := (hs.2 _ hcall).ringing hring
      apply CallState.consistent_of_call hcall'
      apply CallRow.Consistent.of_closed now rfl
      intro d
      refine ⟨hleft d, ?_⟩
      rw [htarget']
      exact map_ne_active (hactive d) (by intro x; split <;> simp)
  | close now hcall hnext hcall' htarget' =>
      apply CallState.consistent_of_call hcall'
      apply CallRow.Consistent.of_closed now
      · obtain ⟨_, rfl⟩ | ⟨_, rfl⟩ := hnext <;> rfl
      · intro d
        rw [htarget']
        cases s.target d <;> simp
  | @place call ids hcall hring hanswered hended hids hcall' htarget' =>
      obtain ⟨d, hd⟩ := List.exists_mem_of_ne_nil ids hids
      apply CallState.consistent_of_call hcall'
      apply CallRow.Consistent.of_ringing hring (by rw [hended]; rfl) hanswered
      · exact ⟨d, by rw [htarget', if_pos hd]⟩
      · intro other
        rw [htarget', hs.1 hcall]
        split <;> simp

theorem find_closeCall {calls : Table CallRow.callId} {callId : String} {call : CallRow}
    {status : CallStatus}
    (hcall : calls.find callId = some call) (hstatus : call.status = status) (next : CallStatus)
    (now : Int) (id : String) :
    (closeCall calls callId status next now).find id =
      if id = callId then some (call.close next now) else calls.find id := by
  rw [closeCall, Table.find_update]
  split
  · next he =>
      subst he
      simp [hcall, Table.key_of_find hcall, hstatus, CallRow.close]
  · next he =>
      cases hid : calls.find id with
      | none => rfl
      | some other => simp [Table.key_of_find hid, he]

theorem find_answerCall {calls : Table CallRow.callId} {callId : String} {call : CallRow}
    (hcall : calls.find callId = some call) (hring : call.status = .ringing) (deviceId : String)
    (now : Int) (id : String) :
    (answerCall calls callId .active deviceId now).find id =
      if id = callId then some (call.answerBy deviceId now) else calls.find id := by
  rw [answerCall, Table.find_update]
  split
  · next he =>
      subst he
      simp [hcall, Table.key_of_find hcall, hring, CallRow.answerBy]
  · next he =>
      cases hid : calls.find id with
      | none => rfl
      | some other => simp [Table.key_of_find hid, he]

theorem find_setTargets (targets : Table CallTargetRow.key) (p : CallTargetRow → Bool)
    (state : String → CallStatus) (k : String × String) : (setTargets targets p state).find k =
      (targets.find k).map (fun t => if p t then { t with state := state t.deviceId } else t) :=
        Table.find_update ..

theorem target_setTargets {targets : Table CallTargetRow.key} {callId : String}
    {p : CallTargetRow → Bool} {q : String → CallStatus → Prop} [∀ d old, Decidable (q d old)]
    (hp : ∀ t, p t = true ↔ t.callId = callId ∧ q t.deviceId t.state)
    (state : String → CallStatus) (id d : String) :
    ((setTargets targets p state).find (id, d)).map CallTargetRow.state =
      if id = callId then ((targets.find (id, d)).map CallTargetRow.state).map
        (fun old => if q d old then state d else old)
      else (targets.find (id, d)).map CallTargetRow.state := by
  rw [find_setTargets]
  cases ht : targets.find (id, d) with
  | none => simp
  | some t =>
      obtain ⟨rfl, rfl⟩ := Prod.ext_iff.mp (Table.key_of_find ht)
      by_cases hid : t.callId = callId <;> by_cases hq : q t.deviceId t.state <;>
        simp [CallTargetRow.key, hp, hid, hq]

theorem target_declinedTargets (db : Db) (callId deviceId id d : String) :
    ((db.declinedTargets callId deviceId).find (id, d)).map CallTargetRow.state =
      if id = callId then ((db.callTargets.find (id, d)).map CallTargetRow.state).map
        (fun old => if d = deviceId ∧ old = .ringing then .declined else old)
      else (db.callTargets.find (id, d)).map CallTargetRow.state :=
  target_setTargets (q := fun d old => d = deviceId ∧ old = .ringing) (by simp) _ id d

theorem count_ringingAt_eq_zero {targets : Table CallTargetRow.key} {callId : String} :
    targets.count (ringingAt callId) = 0 ↔
      ∀ d, (targets.find (callId, d)).map CallTargetRow.state ≠ some .ringing := by
  rw [Table.count_eq_zero]
  constructor
  · intro h d hd
    obtain ⟨t, ht, hring⟩ := Option.map_eq_some_iff.mp hd
    have hfalse := h _ t ht
    obtain ⟨hcall, _⟩ := Prod.ext_iff.mp (Table.key_of_find ht)
    simp [ringingAt, CallTargetRow.key] at hfalse hcall
    exact hfalse hcall hring
  · intro h k t ht
    rw [ringingAt, decide_eq_false_iff_not]
    rintro ⟨rfl, hring⟩
    apply h t.deviceId
    rw [← Table.key_of_find ht] at ht
    rw [show (t.callId, t.deviceId) = t.key from rfl, ht, Option.map_some, hring]

theorem callStep_of_update {callId : String} {call : CallRow} {f : String → CallStatus → CallStatus}
    (hcalls : ∀ id, db'.calls.find id = if id = callId then some call else db.calls.find id)
    (htargets : ∀ id d, (db'.callTargets.find (id, d)).map CallTargetRow.state =
      if id = callId then ((db.callTargets.find (id, d)).map CallTargetRow.state).map (f d)
      else (db.callTargets.find (id, d)).map CallTargetRow.state)
    (hone : CallStep (db.callState callId)
      ⟨some call, fun d => ((db.callState callId).target d).map (f d)⟩)
    (id : String) : CallStep (db.callState id) (db'.callState id) := by
  by_cases hid : id = callId
  · subst hid
    simpa only [Db.callState, hcalls, htargets, if_true] using hone
  · simpa only [Db.callState, hcalls, htargets, if_neg hid] using CallStep.stay rfl

/-- What a transaction does to one call is a step in the life of that call. -/
theorem CallMove.callStep (h : CallMove db db') (id : String) :
    CallStep (db.callState id) (db'.callState id) := by
  cases h with
  | stay => exact .stay rfl
  | expire callId now hcall hring =>
      refine callStep_of_update (find_closeCall hcall hring _ now)
        (target_setTargets (q := fun _ old => old = .ringing) (by simp) _) ?_ id
      exact .expire now hcall hring rfl (fun _ => rfl)
  | answer callId deviceId now hcall hring htarget =>
      refine callStep_of_update (find_answerCall hcall hring deviceId now)
        (target_setTargets (q := fun _ _ => True) (by simp) _) ?_ id
      exact .answer deviceId now hcall hring (by simp [Db.callState, htarget]) rfl (fun _ => by simp)
  | decline callId deviceId hcall hring hleft =>
      have htargets := target_declinedTargets db callId deviceId
      rw [Ne, count_ringingAt_eq_zero] at hleft
      push Not at hleft
      simp only [htargets, if_true] at hleft
      refine callStep_of_update (fun id => ?_) htargets
        (.decline deviceId hcall hring rfl hleft (fun _ => rfl)) id
      split
      · next hid => rw [hid, hcall]
      · rfl
  | declineLast callId deviceId now hcall hring hleft =>
      have htargets := target_declinedTargets db callId deviceId
      rw [count_ringingAt_eq_zero] at hleft
      simp only [htargets, if_true] at hleft
      exact callStep_of_update (find_closeCall hcall hring _ now) htargets
        (.declineLast deviceId now hcall hring rfl hleft (fun _ => rfl)) id
  | close callId now hcall hstatus hnext =>
      refine callStep_of_update (find_closeCall hcall hstatus _ now)
        (target_setTargets (q := fun _ _ => True) (by simp) _) ?_ id
      exact .close now hcall (by rwa [hstatus]) rfl (fun _ => by simp)
  | @place call calls targets outbox ids hinsert hring hanswered hended hids htargets =>
      by_cases hid : call.callId = id
      · refine @CallStep.place _ _ call ids ?_ hring hanswered hended hids ?_ ?_
        · exact hid ▸ (Table.insert_eq_some hinsert).1
        · exact (Table.find_insert hinsert id).trans (if_pos hid)
        · intro d
          simp only [Db.callState, htargets]
          by_cases hd : d ∈ ids <;> simp [hid, hd]
      · apply CallStep.stay
        simp only [Db.callState, htargets, Table.find_insert hinsert, if_neg hid, Ne.symm hid,
          false_and, if_false]

theorem callState_empty (id : String) : (Db.callState {} id).Consistent :=
  ⟨fun _ _ => rfl, fun _ hcall => by cases hcall⟩

theorem Footprint.callStep {request : Request} (h : Footprint env auth draw db request db')
    (id : String) : CallStep (db.callState id) (db'.callState id) := by
  cases h with
  | call hmove => exact hmove.callStep id
  | register | linkCode | link | revoke | content => exact .stay rfl

namespace Server

theorem step_callStep (env : Env) (s : Server) (e : Event) (id : String) :
    CallStep (s.db.callState id) ((step env s e).db.callState id) := by
  have h := step_spec env s e
  generalize step env s e = t at h ⊢
  cases h with
  | quiet hdb => exact .stay (by rw [hdb])
  | authenticate hw hauth =>
      obtain ⟨_, _, _, hdb⟩ := authenticateUnderLock_ok hauth
      rw [hdb]
      exact .stay rfl
  | body hp hbody => exact (body_footprint hbody).callStep id

theorem step_consistent (env : Env) (s : Server) (e : Event)
    (h : ∀ id, (s.db.callState id).Consistent) (id : String) :
    ((step env s e).db.callState id).Consistent :=
  (step_callStep env s e id).consistent (h id)

theorem run_consistent (env : Env) (clock : Int) (es : List Event) (id : String) :
    ((run (step env) { clock, db := {} } es).db.callState id).Consistent :=
  run_invariant (step env) (fun s => ∀ id, (s.db.callState id).Consistent) (step_consistent env)
    _ es callState_empty id

/-- From the empty database and in every interleaving of transactions, calls
only move forward, and the states of a call and of its targets stay consistent. -/
theorem calls_move_forward_consistently (env : Env) (clock : Int) (es : List Event) :
    (∀ e callId call, (run (step env) { clock, db := {} } es).db.calls.find callId = some call →
      ∃ call', (step env (run (step env) { clock, db := {} } es) e).db.calls.find callId = some call' ∧
        StatusMove call.status call'.status) ∧
    ∀ callId call, (run (step env) { clock, db := {} } es).db.calls.find callId = some call →
      call.Consistent ((run (step env) { clock, db := {} } es).db.callState callId).target :=
  ⟨fun e callId _ hcall => (step_callStep env _ e callId).status_move hcall,
    fun callId call hcall => (run_consistent env clock es callId).2 call hcall⟩

end Server

end TriNet.CallApi
