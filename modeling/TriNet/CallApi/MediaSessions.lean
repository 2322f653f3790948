import TriNet.CallApi.CallLifecycle

namespace TriNet.CallApi

open Lib Lib.BigEndian Lib.Runs

variable {env : Env} {auth : AuthenticatedDevice} {draw : Draw} {db db' : Db}

inductive Side
  | caller | callee
  deriving DecidableEq

/-- A media session that a transaction has authorised, and the device in whose
name its token is made out. -/
structure Grant where
  side : Side
  callId : String
  deviceId : String
  deriving DecidableEq

def Reply.grant : Reply → Option Grant
  | .call (.session session) => some ⟨.caller, session.callId, session.token.sub⟩
  | .joined (.ok session) => some ⟨.callee, session.callId, session.token.sub⟩
  | _ => none

/-- The call names the device: as its creator or as the device that answered. -/
def CallRow.Names (call : CallRow) (g : Grant) : Prop :=
  match g.side with
  | .caller => call.callerDeviceId = g.deviceId
  | .callee => call.answeredDeviceId = some g.deviceId

def CallRow.Open (call : CallRow) (now : Int) : Prop :=
  call.status = .active ∨
    call.status = .ringing ∧ now ≤ call.createdAt + InternetCall.inviteTtlSeconds

/-- What a transaction that authorises a session finds and what it leaves: a call
that is active, or rings and is not past its lifetime by the clock reading of
the transaction. A new call is as old as one of these readings. -/
structure Authorises (draw : Draw) (db db' : Db) (g : Grant) : Prop where
  finds : ∀ call, db.calls.find g.callId = some call → call.Open draw.now
  leaves : ∃ call, db'.calls.find g.callId = some call ∧ call.Names g ∧
    (call.Open draw.now ∨
      db.calls.find g.callId = none ∧ call.status = .ringing ∧ ∃ i, call.createdAt = draw.clock i)

theorem createCall_authorises {request : CreateCallRequest} {session : InternetCallSession}
    (h : createCall env request auth draw db = .ok (db', .session session)) :
    Authorises draw db db' ⟨.caller, session.callId, session.token.sub⟩ := by
  obtain ⟨hsub, call, hcall, hcaller, hstate⟩ := (createCall_ok h).2 session rfl
  obtain ⟨rfl, hstate⟩ | hnew := hstate
  · have hopen : call.Open draw.now := hstate.imp_right (fun ⟨hring, hlife⟩ => ⟨hring, hlife.2⟩)
    refine ⟨?_, call, hcall, hcaller.trans hsub.symm, .inl hopen⟩
    intro found hfound
    cases hcall.symm.trans hfound
    exact hopen
  · refine ⟨?_, call, hcall, hcaller.trans hsub.symm, .inr hnew⟩
    intro found hfound
    cases hnew.1.symm.trans hfound

theorem joinCall_leaves {callId : String} {request : CallParticipantRequest}
    {session : InternetCallSession}
    (h : joinCall env callId request auth draw db = .ok (db', .ok session)) :
    session.callId = callId ∧ ∃ call, db'.calls.find callId = some call ∧ call.status = .active ∧
      call.Names ⟨.callee, session.callId, session.token.sub⟩ := by
  obtain ⟨call, hcall, ⟨rfl, hactive, hanswered, _, hs, hid, hsub⟩ | ⟨_, _, _, hs⟩ |
    ⟨rfl, hring, _, _, _, hs, hid, hsub⟩⟩ := joinCall_ok h
  · cases hs
    rw [hsub]
    exact ⟨hid, call, hcall, hactive, hanswered⟩
  · cases hs
  · cases hs
    rw [hsub]
    refine ⟨hid, call.answerBy auth.deviceId draw.now, ?_, rfl, rfl⟩
    exact (find_answerCall hcall hring _ _ _).trans (if_pos rfl)

theorem joinCall_authorises {callId : String} {request : CallParticipantRequest}
    {session : InternetCallSession}
    (h : joinCall env callId request auth draw db = .ok (db', .ok session))
    (htime : ∀ call, db.calls.find callId = some call → draw.now < call.createdAt + 2 ^ 32) :
    Authorises draw db db' ⟨.callee, session.callId, session.token.sub⟩ := by
  obtain ⟨hid, left, hleft, hactive, hnames⟩ := joinCall_leaves h
  rw [hid] at hnames ⊢
  refine ⟨?_, left, hleft, hnames, .inl (.inl hactive)⟩
  intro found hfound
  obtain ⟨call, hcall, ⟨_, hactive, _⟩ | ⟨_, _, _, hs⟩ | ⟨_, hring, hfresh, _⟩⟩ := joinCall_ok h
  · cases hcall.symm.trans hfound
    exact .inl hactive
  · cases hs
  · cases hcall.symm.trans hfound
    exact .inr ⟨hring, le_of_wrappedInviteFresh hfresh (htime _ hcall)⟩

/-- Only `create_call` and `join_call` answer with a session. -/
theorem body_grant {request : Request} {reply : Reply} {g : Grant}
    (h : request.body env auth draw db = .ok (db', reply)) (hg : reply.grant = some g) :
    (∃ r session, request = .createCall r ∧ createCall env r auth draw db = .ok (db', .session session) ∧
        g = ⟨.caller, session.callId, session.token.sub⟩) ∨
      ∃ callId r session, request = .joinCall callId r ∧
        joinCall env callId r auth draw db = .ok (db', .ok session) ∧
        g = ⟨.callee, session.callId, session.token.sub⟩ := by
  cases request <;> simp only [Request.body, bind_eq_ok] at h
  case query => cases h; cases hg
  all_goals
    obtain ⟨⟨_, response⟩, h, hp⟩ := h
    cases hp
  case createCall =>
    cases response with
    | session session => cases hg; exact .inl ⟨_, session, rfl, h, rfl⟩
    | conflict => cases hg
  case joinCall =>
    cases response with
    | ok session => cases hg; exact .inr ⟨_, _, session, rfl, h, rfl⟩
    | error e => cases hg
  all_goals cases hg

theorem body_names {request : Request} {reply : Reply} {g : Grant}
    (h : request.body env auth draw db = .ok (db', reply)) (hg : reply.grant = some g) :
    ∃ call, db'.calls.find g.callId = some call ∧ call.Names g := by
  obtain ⟨_, session, _, hcreate, rfl⟩ | ⟨_, _, session, _, hjoin, rfl⟩ := body_grant h hg
  · obtain ⟨call, hcall, hnames, _⟩ := (createCall_authorises hcreate).leaves
    exact ⟨call, hcall, hnames⟩
  · obtain ⟨hid, call, hcall, _, hnames⟩ := joinCall_leaves hjoin
    exact ⟨call, by rw [hid, hcall], hnames⟩

theorem CallRow.Names.close {call : CallRow} {g : Grant} (h : call.Names g) (next : CallStatus)
    (now : Int) : (call.close next now).Names g := h

theorem CallStep.names {s s' : CallState} (h : CallStep s s') (hs : s.Consistent)
    {call : CallRow} {g : Grant}
    (hcall : s.call = some call) (hnames : call.Names g) :
    ∃ call', s'.call = some call' ∧ call'.Names g := by
  cases h with
  | stay h => exact ⟨call, h ▸ hcall, hnames⟩
  | expire now hold hring hcall' | declineLast deviceId now hold hring hcall'
  | close now hold hnext hcall' =>
      cases hold.symm.trans hcall
      exact ⟨_, hcall', hnames.close _ now⟩
  | answer deviceId now hold hring htarget hcall' =>
      cases hold.symm.trans hcall
      refine ⟨_, hcall', ?_⟩
      have hanswered := ((hs.2 _ hcall).ringing hring).2.2
      obtain ⟨side, callId, device⟩ := g
      cases side with
      | caller => exact hnames
      | callee => cases hanswered.symm.trans hnames
  | decline deviceId hold hring hcall' =>
      cases hold.symm.trans hcall
      exact ⟨call, hcall', hnames⟩
  | place hnone => cases hnone.symm.trans hcall

namespace Server

def grant (env : Env) (s : Server) : Event → Option Grant
  | .body i draw => do
      let p ← s.pending[i]?
      let r ← (p.request.body env p.auth draw s.db).toOption
      r.2.grant
  | _ => none

def grants (env : Env) : Server → List Event → List Grant
  | _, [] => []
  | s, e :: es => (s.grant env e).toList ++ grants env (step env s e) es

/-- Less than 2^32 seconds pass between the placing of a call and a request to
join it. -/
def joinsInTime (s : Server) : Event → Bool
  | .body i draw =>
      match s.pending[i]? with
      | some ⟨_, .joinCall callId _⟩ =>
          (s.db.calls.find callId).all (fun call => draw.now < call.createdAt + 2 ^ 32)
      | _ => true
  | _ => true

theorem lt_of_joinsInTime {s : Server} {i : Nat} {p : Pending} {callId : String}
    {participant : CallParticipantRequest} {call : CallRow} (h : s.joinsInTime (.body i draw) = true)
    (hp : s.pending[i]? = some p) (hjoin : p.request = .joinCall callId participant)
    (hcall : s.db.calls.find callId = some call) : draw.now < call.createdAt + 2 ^ 32 := by
  obtain ⟨auth, request⟩ := p
  obtain rfl : request = .joinCall callId participant := hjoin
  simpa [joinsInTime, hp, hcall] using h

theorem exists_body_of_grant {s : Server} {i : Nat} {g : Grant} (h : s.grant env (.body i draw) = some g) :
    ∃ p db' reply, s.pending[i]? = some p ∧ p.request.body env p.auth draw s.db = .ok (db', reply) ∧
      reply.grant = some g ∧ (step env s (.body i draw)).db = db' := by
  simp only [grant, Option.bind_eq_bind, Option.bind_eq_some_iff] at h
  obtain ⟨p, hp, ⟨db', reply⟩, hr, hg⟩ := h
  replace hr := mem_toOption.mp hr
  exact ⟨p, db', reply, hp, hr, hg, by simp only [step, hp, hr]⟩

theorem grant_authorises {s : Server} {i : Nat} {g : Grant}
    (h : s.grant env (.body i draw) = some g) (htime : s.joinsInTime (.body i draw) = true) :
    Authorises draw s.db (step env s (.body i draw)).db g := by
  obtain ⟨p, db', reply, hp, hbody, hg, rfl⟩ := exists_body_of_grant h
  obtain ⟨_, session, _, hcreate, rfl⟩ | ⟨callId, _, session, hrequest, hjoin, rfl⟩ := body_grant hbody hg
  · exact createCall_authorises hcreate
  · exact joinCall_authorises hjoin (fun call hcall => lt_of_joinsInTime htime hp hrequest hcall)

theorem named_of_grants (s : Server) (es : List Event) (hs : ∀ id, (s.db.callState id).Consistent)
    {g : Grant} (hg : g ∈ grants env s es) :
    ∃ call, (run (step env) s es).db.calls.find g.callId = some call ∧ call.Names g := by
  induction es generalizing s with
  | nil => cases hg
  | cons e es ih =>
      rcases List.mem_append.mp hg with hnow | hlater
      · obtain ⟨call, hcall, hnames⟩ : ∃ call, (step env s e).db.calls.find g.callId = some call ∧
            call.Names g := by
          cases e with
          | body i draw =>
              obtain ⟨p, db', reply, _, hbody, hg, hdb⟩ := exists_body_of_grant (Option.mem_toList.mp hnow)
              exact hdb ▸ body_names hbody hg
          | tick | arrive | authenticate => cases hnow
        refine (run_invariant (step env)
          (fun t => (∀ id, (t.db.callState id).Consistent) ∧
            ∃ call, (t.db.callState g.callId).call = some call ∧ call.Names g)
          ?_ _ es ⟨step_consistent env s e hs, call, hcall, hnames⟩).2
        rintro t f ⟨ht, c, hc, hn⟩
        exact ⟨step_consistent env t f ht, (step_callStep env t f g.callId).names (ht _) hc hn⟩
      · exact ih (step env s e) (step_consistent env s e hs) hlater

/-- In every interleaving of transactions, all sessions of a call on the side of
the callee go to one device and all on the side of the caller to the device
that created it. If nobody waits 2^32 seconds to join, none is authorised for a
call that is over. -/
theorem sessions_go_to_named_devices (env : Env) (clock : Int) (es : List Event) :
    (∀ g ∈ grants env { clock, db := {} } es, ∀ g' ∈ grants env { clock, db := {} } es,
      g.side = .callee → g'.side = .callee → g.callId = g'.callId → g.deviceId = g'.deviceId) ∧
    (∀ g ∈ grants env { clock, db := {} } es, g.side = .caller →
      ∃ call, (run (step env) { clock, db := {} } es).db.calls.find g.callId = some call ∧
        call.callerDeviceId = g.deviceId) ∧
    (Along (step env) (fun s e => s.joinsInTime e = true) { clock, db := {} } es →
      ∀ s i draw, (s, .body i draw) ∈ trace (step env) { clock, db := {} } es →
        ∀ g, s.grant env (.body i draw) = some g →
          Authorises draw s.db (step env s (.body i draw)).db g) := by
  refine ⟨?_, ?_, ?_⟩
  · rintro ⟨_, callId, deviceId⟩ hg ⟨_, _, deviceId'⟩ hg' rfl rfl rfl
    obtain ⟨call, hcall, hnames⟩ := named_of_grants _ es callState_empty hg
    obtain ⟨call', hcall', hnames'⟩ := named_of_grants _ es callState_empty hg'
    cases hcall.symm.trans hcall'
    exact Option.some.inj (hnames.symm.trans hnames')
  · rintro ⟨_, callId, deviceId⟩ hg rfl
    exact named_of_grants _ es callState_empty hg
  · intro htime s i draw hstep g hg
    exact grant_authorises hg (trace_along (step env) _ (fun _ => True) (fun s e => s.joinsInTime e = true)
      (fun _ _ _ _ => trivial) (fun _ _ _ h => h) _ es trivial htime _ hstep)

/-- Device `a` calls the account of `b`, which answers. -/
def answeredCall : List Event :=
  serve "key-a" "a" "nonce-a-00000001" "register a" 0 (plainRegistration "u" "a" "key-a") ++
    serve "key-a" "a" "nonce-a-00000002" "name a" 1 (.claimNickname ⟨"alice", "u", "a"⟩) ++
    serve "key-b" "b" "nonce-b-00000001" "register b" 2 (plainRegistration "w" "b" "key-b") ++
    serve "key-b" "b" "nonce-b-00000002" "name b" 3 (.claimNickname ⟨"robert", "w", "b"⟩) ++
    serve "key-a" "a" "nonce-a-00000003" "call" 4
      (.createCall ⟨"uuid", "robert", "u", "a", true, false⟩) ++
    serve "key-b" "b" "nonce-b-00000003" "join" 5 (.joinCall (plainCallId 4) ⟨"w", "b"⟩)

theorem sessions_go_to_named_devices_answered :
    grants plainEnv { clock := 1000, db := {} } answeredCall =
        [⟨.caller, plainCallId 4, "a"⟩, ⟨.callee, plainCallId 4, "b"⟩] ∧
      Along (step plainEnv) (fun s e => s.joinsInTime e = true) { clock := 1000, db := {} } answeredCall ∧
      ∀ s i draw, (s, .body i draw) ∈ trace (step plainEnv) { clock := 1000, db := {} } answeredCall →
        ∀ g, s.grant plainEnv (.body i draw) = some g →
          Authorises draw s.db (step plainEnv s (.body i draw)).db g := by
  obtain ⟨hgrants, htime⟩ : grants plainEnv { clock := 1000, db := {} } answeredCall =
        [⟨.caller, plainCallId 4, "a"⟩, ⟨.callee, plainCallId 4, "b"⟩] ∧
      Along (step plainEnv) (fun s e => s.joinsInTime e = true)
        { clock := 1000, db := {} } answeredCall := by
    decide +kernel
  exact ⟨hgrants, htime, (sessions_go_to_named_devices plainEnv 1000 answeredCall).2.2 htime⟩

/-- The request of `b` to join is authenticated in time, but its transaction
waits for 2^32 seconds. -/
def aboutToJoinLate : Server :=
  run (step plainEnv) { clock := 1000, db := {} } (answeredCall.take 15 ++
    [.arrive (plainIncoming "key-b" "b" "1000" "nonce-b-00000003" "join"
      (.joinCall (plainCallId 4) ⟨"w", "b"⟩)), .authenticate 0, .tick (2 ^ 32)])

/-- The casts to `u32` take the old invitation for a fresh one: the session is
authorised for a call that has rung 2^32 seconds. -/
theorem aboutToJoinLate_authorised :
    aboutToJoinLate.grant plainEnv (.body 0 (plainDraw (2 ^ 32 + 1000) 5)) =
      some ⟨.callee, plainCallId 4, "b"⟩ ∧
      ¬ Authorises (plainDraw (2 ^ 32 + 1000) 5) aboutToJoinLate.db
        (step plainEnv aboutToJoinLate (.body 0 (plainDraw (2 ^ 32 + 1000) 5))).db
        ⟨.callee, plainCallId 4, "b"⟩ := by
  obtain ⟨hgrant, hcall⟩ : aboutToJoinLate.grant plainEnv (.body 0 (plainDraw (2 ^ 32 + 1000) 5)) =
        some ⟨.callee, plainCallId 4, "b"⟩ ∧
      (aboutToJoinLate.db.calls.find (plainCallId 4)).map (fun call =>
        (call.status, call.createdAt)) = some (.ringing, 1000) := by
    decide +kernel
  refine ⟨hgrant, fun hauthorises => ?_⟩
  obtain ⟨call, hfound, hstate⟩ := Option.map_eq_some_iff.mp hcall
  obtain ⟨hring, hcreated⟩ := Prod.mk.inj hstate
  obtain hactive | ⟨_, hlife⟩ := hauthorises.finds call hfound
  · rw [hring] at hactive
    cases hactive
  · rw [hcreated] at hlife
    exact absurd hlife (by decide)

end Server

end TriNet.CallApi
