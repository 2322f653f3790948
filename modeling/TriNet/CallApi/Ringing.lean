import Mathlib.Data.Int.ConditionallyCompleteOrder
import Mathlib.Data.List.Induction
import TriNet.CallApi.CallChanges
import TriNet.CallApi.MediaSessions

namespace TriNet.CallApi

open Lib Lib.BigEndian Lib.Runs

variable {env : Env} {draw : Draw} {draws : List Draw} {db db' : Db} {request : Request}

/-- The two handlers that judge an invitation by the clock read it while they
hold the database. Those that only close calls read it before. -/
def Request.readsUnderLock : Request → Bool
  | .createCall _ | .joinCall .. => true
  | _ => false

/-- Clock readings do not go back, neither within a transaction nor from one to
a later one. -/
structure MonotoneClock (draws : List Draw) : Prop where
  within : ∀ draw ∈ draws, Monotone draw.clock
  across : draws.Pairwise (fun draw later => ∀ i, draw.clock i ≤ later.now)

def CallRow.LiveAt (call : CallRow) (now : Int) : Prop :=
  call.status = .active ∨ call.status = .ringing ∧ call.createdAt ≥ now - InternetCall.inviteTtlSeconds

/-- A call that is over for its devices: it is not active, and if it still rings
then a transaction has found it too old. -/
def CallRow.Past (draws : List Draw) (call : CallRow) : Prop :=
  call.status ≠ .active ∧
    (call.status = .ringing → ∃ draw ∈ draws, call.createdAt < draw.now - InternetCall.inviteTtlSeconds)

theorem CallRow.Past.mono {call : CallRow} (h : call.Past draws) (more : List Draw) :
    call.Past (draws ++ more) := by
  refine ⟨h.1, fun hring => ?_⟩
  obtain ⟨draw, hdraw, hlate⟩ := h.2 hring
  exact ⟨draw, List.mem_append_left _ hdraw, hlate⟩

theorem CallRow.Past.not_live {call : CallRow} {now : Int} (h : call.Past draws)
    (hnow : ∀ draw ∈ draws, ∀ i, draw.clock i ≤ now) : ¬ call.LiveAt now := by
  rintro (hactive | ⟨hring, hfresh⟩)
  · exact h.1 hactive
  · obtain ⟨draw, hdraw, hlate⟩ := h.2 hring
    have hle : draw.now ≤ now := hnow draw hdraw 0
    omega

theorem not_live_of_free {deviceId : String} {since : Int} {call : CallRow}
    (hfree : busyDevice db since deviceId = false) (hcall : call ∈ db.calls.rows)
    (htarget : db.Targets call.callId deviceId) : liveSince since call = false := by
  rw [Bool.eq_false_iff]
  intro hlive
  obtain ⟨t, ht⟩ := Option.isSome_iff_exists.mp htarget
  obtain ⟨hrow, hkey⟩ := Table.find_eq_some.mp ht
  have hbusy : busyDevice db since deviceId = true := by
    refine List.any_eq_true.mpr ⟨call, hcall, ?_⟩
    rw [Bool.and_eq_true, Bool.or_eq_true]
    refine ⟨hlive, .inr (List.any_eq_true.mpr ⟨t, hrow, ?_⟩)⟩
    rw [decide_eq_true_eq]
    exact Prod.ext_iff.mp hkey
  rw [hfree] at hbusy
  cases hbusy

/-- Of two calls to one device, the one placed first is over. -/
structure Db.Exclusive (draws : List Draw) (db : Db) : Prop where
  known : ∀ id d, db.Targets id d → ∃ call, db.calls.find id = some call
  past : db.calls.rows.Pairwise (fun call later =>
    ∀ d, db.Targets call.callId d → db.Targets later.callId d → call.Past draws)

/-- A call that is over stays over: a transaction could only answer it with a
clock reading at which it has been too old for long. -/
theorem CallRow.Past.becomes {call call' : CallRow} (h : call.Past draws)
    (hbecomes : call.Becomes draw request call')
    (hafter : request.readsUnderLock = true → ∀ earlier ∈ draws, ∀ i, earlier.clock i ≤ draw.now)
    (hwrap : ∀ participant, request = .joinCall call.callId participant →
      draw.now < call.createdAt + 2 ^ 32) :
    call'.Past draws := by
  constructor
  · intro hactive
    obtain hwas | ⟨hring, hfresh, participant, hjoin⟩ := hbecomes.active hactive
    · exact h.1 hwas
    · obtain ⟨earlier, hearlier, hlate⟩ := h.2 hring
      have hle : earlier.now ≤ draw.now := hafter (by rw [hjoin]; rfl) earlier hearlier 0
      have hyoung := le_of_wrappedInviteFresh hfresh (hwrap participant hjoin)
      omega
  · intro hring
    rw [hbecomes.createdAt]
    exact h.2 (hbecomes.ringing hring)

theorem Db.Exclusive.keep (hdb : db.Exclusive draws) (more : List Draw) {f : CallRow → CallRow}
    (hrows : db'.calls.rows = db.calls.rows.map f) (hids : ∀ r ∈ db.calls.rows, (f r).callId = r.callId)
    (htargets : ∀ id d, db'.Targets id d ↔ db.Targets id d)
    (hpast : ∀ r ∈ db.calls.rows, r.Past draws → (f r).Past draws) : db'.Exclusive (draws ++ more) := by
  constructor
  · intro id d hd
    obtain ⟨call, hcall⟩ := hdb.known id d ((htargets id d).mp hd)
    obtain ⟨hmem, hid⟩ := Table.find_eq_some.mp hcall
    refine ⟨f call, Table.find_eq_some.mpr ⟨?_, ?_⟩⟩
    · rw [hrows]
      exact List.mem_map_of_mem hmem
    · rw [hids call hmem, hid]
  · rw [hrows, List.pairwise_map]
    refine hdb.past.imp_of_mem ?_
    intro call later hcall hlater hover d hd hd'
    rw [hids call hcall, htargets] at hd
    rw [hids later hlater, htargets] at hd'
    exact (hpast call hcall (hover d hd hd')).mono more

theorem Db.Exclusive.of_kept (h : db.Exclusive draws) (more : List Draw) (hcalls : db'.calls = db.calls)
    (htargets : db'.callTargets = db.callTargets) : db'.Exclusive (draws ++ more) := by
  have hrows : db'.calls.rows = db.calls.rows.map id := by rw [hcalls, List.map_id]
  apply h.keep more hrows (fun _ _ => rfl) _ (fun _ _ hpast => hpast)
  intro id d
  rw [Db.Targets, Db.Targets, htargets]

theorem Db.Exclusive.place (hdb : db.Exclusive draws) {call : CallRow} {ids : List String}
    (hinsert : db.calls.insert call = some db'.calls)
    (hfree : ∀ d ∈ ids, busyDevice db (draw.now - InternetCall.inviteTtlSeconds) d = false)
    (htargets : ∀ id d, db'.Targets id d ↔ id = call.callId ∧ d ∈ ids ∨ db.Targets id d) :
    db'.Exclusive (draws ++ [draw]) := by
  obtain ⟨hnew, hrows⟩ := Table.insert_eq_some hinsert
  have hnone (d : String) : ¬ db.Targets call.callId d := by
    intro hd
    obtain ⟨old, hold⟩ := hdb.known _ d hd
    rw [hnew] at hold
    cases hold
  have hother {old : CallRow} (hold : old ∈ db.calls.rows) (d : String) :
      db'.Targets old.callId d ↔ db.Targets old.callId d := by
    rw [htargets]
    refine or_iff_right ?_
    rintro ⟨hid, _⟩
    have hfound := Table.mem_rows.mp hold
    rw [hid, hnew] at hfound
    cases hfound
  constructor
  · intro id d hd
    rw [Table.find_insert hinsert]
    obtain ⟨rfl, _⟩ | hd := (htargets id d).mp hd
    · exact ⟨call, if_pos rfl⟩
    · obtain ⟨old, hold⟩ := hdb.known id d hd
      split
      · exact ⟨call, rfl⟩
      · exact ⟨old, hold⟩
  · rw [hrows, List.pairwise_append]
    refine ⟨hdb.past.imp_of_mem ?_, List.pairwise_singleton _ _, ?_⟩
    · intro old later hold hlater hpast d hd hd'
      exact (hpast d ((hother hold d).mp hd) ((hother hlater d).mp hd')).mono _
    · intro old hold new hmem d hd hd'
      obtain rfl := List.mem_singleton.mp hmem
      -- The device was free for the new call, so the old one was not live.
      obtain ⟨_, hid⟩ | hd' := (htargets _ d).mp hd'
      · have hdead := not_live_of_free (hfree d hid) hold ((hother hold d).mp hd)
        simp only [liveSince, decide_eq_false_iff_not, not_or, not_and] at hdead
        refine ⟨hdead.1, fun hring => ⟨draw, List.mem_append_right _ List.mem_cons_self, ?_⟩⟩
        have hlate := hdead.2 hring
        omega
      · exact absurd hd' (hnone d)

theorem CallChange.exclusive (h : CallChange env draw db db' request) (hdb : db.Exclusive draws)
    (hafter : request.readsUnderLock = true → ∀ earlier ∈ draws, ∀ i, earlier.clock i ≤ draw.now)
    (hwrap : ∀ callId participant call, request = .joinCall callId participant →
      db.calls.find callId = some call → draw.now < call.createdAt + 2 ^ 32) :
    db'.Exclusive (draws ++ if request.readsUnderLock then [draw] else []) := by
  cases h with
  | keep f hrows hf htargets =>
      apply hdb.keep _ hrows (fun r hr => (hf r hr).callId) htargets
      intro call hcall hpast
      apply hpast.becomes (hf call hcall) hafter
      intro participant hjoin
      exact hwrap _ participant call hjoin (Table.mem_rows.mp hcall)
  | place hinsert _ _ _ _ hfree htargets => exact hdb.place hinsert hfree htargets

namespace Server

/-- The readings of a transaction that reads the clock under the lock. -/
def lockedDraw (s : Server) : Event → Option Draw
  | .body i draw => if s.pending[i]?.any (fun p => p.request.readsUnderLock) then some draw else none
  | _ => none

def lockedDraws (env : Env) (s : Server) (es : List Event) : List Draw :=
  (trace (step env) s es).filterMap (fun (s, e) => s.lockedDraw e)

theorem lockedDraws_concat (env : Env) (s : Server) (es : List Event) (e : Event) :
    lockedDraws env s (es ++ [e]) =
      lockedDraws env s es ++ ((run (step env) s es).lockedDraw e).toList := by
  rw [lockedDraws, trace_concat, List.filterMap_append]
  rfl

theorem step_exclusive (env : Env) (s : Server) (e : Event) (hs : s.db.Exclusive draws)
    (htime : s.joinsInTime e = true)
    (hafter : ∀ draw ∈ s.lockedDraw e, ∀ earlier ∈ draws, ∀ i, earlier.clock i ≤ draw.now) :
    (step env s e).db.Exclusive (draws ++ (s.lockedDraw e).toList) := by
  obtain ⟨hcalls, htargets, _⟩ | ⟨i, draw, p, rfl, hp, hchange⟩ := s.step_change env e
  · exact hs.of_kept _ hcalls htargets
  · have hlocked : s.lockedDraw (.body i draw) = if p.request.readsUnderLock then some draw else none := by
      simp [lockedDraw, hp]
    have h := hchange.exclusive hs ?_ ?_
    · rw [hlocked]
      cases hreads : p.request.readsUnderLock <;> rw [hreads] at h <;> exact h
    · intro hreads
      rw [hlocked, if_pos hreads] at hafter
      exact hafter draw rfl
    · intro callId participant call hjoin hcall
      exact lt_of_joinsInTime htime hp hjoin hcall

theorem run_exclusive (env : Env) (clock : Int) (es : List Event)
    (hclock : MonotoneClock (lockedDraws env { clock, db := {} } es))
    (htime : Along (step env) (fun s e => s.joinsInTime e = true) { clock, db := {} } es) :
    (run (step env) { clock, db := {} } es).db.Exclusive (lockedDraws env { clock, db := {} } es) := by
  induction es using List.reverseRecOn with
  | nil => exact ⟨fun _ _ hd => Bool.noConfusion hd, .nil⟩
  | append_singleton es e ih =>
      rw [lockedDraws_concat] at hclock ⊢
      obtain ⟨htime, he⟩ := along_concat.mp htime
      obtain ⟨hbefore, _, hafter⟩ := List.pairwise_append.mp hclock.across
      rw [run_concat]
      apply step_exclusive env _ e
        (ih ⟨fun draw hdraw => hclock.within draw (List.mem_append_left _ hdraw), hbefore⟩ htime) he
      intro draw hdraw earlier hearlier
      exact hafter earlier hearlier draw (Option.mem_toList.mpr hdraw)

/-- With a monotone clock, in every interleaving of the handlers in which nobody
waits 2^32 seconds to join, a device is the target of at most one call that is
live, and of two calls to it the one placed first is never active once the
second is there. -/
theorem devices_ring_once (env : Env) (clock : Int) (es : List Event)
    (hclock : MonotoneClock (lockedDraws env { clock, db := {} } es))
    (htime : Along (step env) (fun s e => s.joinsInTime e = true) { clock, db := {} } es) :
    (∀ now, (∀ draw ∈ lockedDraws env { clock, db := {} } es, ∀ i, draw.clock i ≤ now) →
      ∀ deviceId, ∀ call ∈ (run (step env) { clock, db := {} } es).db.calls.rows,
        ∀ call' ∈ (run (step env) { clock, db := {} } es).db.calls.rows,
          (run (step env) { clock, db := {} } es).db.Targets call.callId deviceId →
          (run (step env) { clock, db := {} } es).db.Targets call'.callId deviceId →
          call.LiveAt now → call'.LiveAt now → call = call') ∧
    (run (step env) { clock, db := {} } es).db.calls.rows.Pairwise (fun call later =>
      ∀ deviceId, (run (step env) { clock, db := {} } es).db.Targets call.callId deviceId →
        (run (step env) { clock, db := {} } es).db.Targets later.callId deviceId →
          call.status ≠ .active) := by
  have h := run_exclusive env clock es hclock htime
  refine ⟨?_, h.past.imp (fun hpast d hd hd' => (hpast d hd hd').1)⟩
  intro now hnow deviceId call hcall call' hcall' htarget htarget' hlive hlive'
  obtain ⟨before, after, hrows⟩ := List.append_of_mem hcall
  obtain ⟨_, hafter, hbefore⟩ := List.pairwise_append.mp (hrows ▸ h.past)
  rw [hrows, List.mem_append, List.mem_cons] at hcall'
  obtain hcall' | rfl | hcall' := hcall'
  · exact absurd hlive'
      ((hbefore call' hcall' call (List.mem_cons_self ..) deviceId htarget' htarget).not_live hnow)
  · rfl
  · exact absurd hlive
      (((List.pairwise_cons.mp hafter).1 call' hcall' deviceId htarget htarget').not_live hnow)

section Runs

def bodyDraw : Event → Option Draw
  | .body _ draw => some draw
  | _ => none

theorem lockedDraws_cons (env : Env) (s : Server) (e : Event) (es : List Event) :
    lockedDraws env s (e :: es) = (s.lockedDraw e).toList ++ lockedDraws env (step env s e) es := by
  rw [lockedDraws, trace, List.filterMap_cons]
  cases h : s.lockedDraw e <;> simp only [h] <;> rfl

theorem lockedDraws_sublist (env : Env) (s : Server) (es : List Event) :
    (lockedDraws env s es).Sublist (es.filterMap bodyDraw) := by
  induction es generalizing s with
  | nil => exact .slnil
  | cons e es ih =>
      have hrest := ih (step env s e)
      rw [lockedDraws_cons]
      cases e with
      | tick | arrive | authenticate => exact hrest
      | body i draw =>
          rw [lockedDraw]
          split
          · exact hrest.cons_cons draw
          · exact hrest.cons draw

theorem monotoneClock_of_plain {env : Env} {s : Server} {es : List Event} (readings : List (Int × UInt8))
    (hes : es.filterMap bodyDraw = readings.map (fun r => plainDraw r.1 r.2))
    (hsorted : readings.Pairwise (fun r later => r.1 ≤ later.1)) :
    MonotoneClock (lockedDraws env s es) := by
  have hsub := hes ▸ lockedDraws_sublist env s es
  constructor
  · intro draw hdraw
    obtain ⟨r, _, rfl⟩ := List.mem_map.mp (hsub.subset hdraw)
    exact monotone_const
  · refine List.Pairwise.sublist hsub (List.pairwise_map.mpr (hsorted.imp ?_))
    intro r later hle _
    exact hle

theorem devices_ring_once_answered :
    MonotoneClock (lockedDraws plainEnv { clock := 1000, db := {} } answeredCall) ∧
      Along (step plainEnv) (fun s e => s.joinsInTime e = true) { clock := 1000, db := {} } answeredCall ∧
      (run (step plainEnv) { clock := 1000, db := {} } answeredCall).db.calls.rows.Pairwise
        (fun call later =>
        ∀ deviceId, (run (step plainEnv) { clock := 1000, db := {} } answeredCall).db.Targets
          call.callId deviceId →
          (run (step plainEnv) { clock := 1000, db := {} } answeredCall).db.Targets later.callId deviceId →
          call.status ≠ .active) := by
  have hclock : MonotoneClock (lockedDraws plainEnv { clock := 1000, db := {} } answeredCall) := by
    apply monotoneClock_of_plain [(1000, 0), (1000, 1), (1000, 2), (1000, 3), (1000, 4), (1000, 5)] rfl
    decide
  have htime : Along (step plainEnv) (fun s e => s.joinsInTime e = true)
      { clock := 1000, db := {} } answeredCall := by
    decide +kernel
  exact ⟨hclock, htime, (devices_ring_once plainEnv 1000 answeredCall hclock htime).2⟩

def serveLater (key deviceId nonce body : String) (seed : UInt8) (request : Request) : List Event :=
  [.arrive (plainIncoming key deviceId "1031" nonce body request), .authenticate 0,
    .body 0 (plainDraw 1031 seed)]

/-- Two devices call `b`, the second when the first call is too old. `b` answers
the second call; its request to join the first one waits for 2^32 seconds. -/
def answeredTwice : List Event :=
  serve "key-a" "a" "nonce-a-00000001" "register a" 0 (plainRegistration "u" "a" "key-a") ++
    serve "key-a" "a" "nonce-a-00000002" "name a" 1 (.claimNickname ⟨"alice", "u", "a"⟩) ++
    serve "key-b" "b" "nonce-b-00000001" "register b" 2 (plainRegistration "w" "b" "key-b") ++
    serve "key-b" "b" "nonce-b-00000002" "name b" 3 (.claimNickname ⟨"robert", "w", "b"⟩) ++
    serve "key-c" "c" "nonce-c-00000001" "register c" 4 (plainRegistration "x" "c" "key-c") ++
    serve "key-c" "c" "nonce-c-00000002" "name c" 5 (.claimNickname ⟨"carolyn", "x", "c"⟩) ++
    serve "key-a" "a" "nonce-a-00000003" "call" 6
    (.createCall ⟨"uuid", "robert", "u", "a", true, false⟩) ++ [.tick 31] ++
    serveLater "key-c" "c" "nonce-c-00000003" "call" 7
      (.createCall ⟨"uuid", "robert", "x", "c", true, false⟩) ++
    serveLater "key-b" "b" "nonce-b-00000003" "join" 8 (.joinCall (plainCallId 7) ⟨"w", "b"⟩) ++
    [.arrive (plainIncoming "key-b" "b" "1031" "nonce-b-00000004" "join"
      (.joinCall (plainCallId 6) ⟨"w", "b"⟩)),
      .authenticate 0, .tick (2 ^ 32 - 31), .body 0 (plainDraw (2 ^ 32 + 1000) 9)]

/-- The casts to `u32` take the old invitation for a fresh one, and `b` is in two
active calls. -/
theorem answeredTwice_both_active :
    MonotoneClock (lockedDraws plainEnv { clock := 1000, db := {} } answeredTwice) ∧
      ((run (step plainEnv) { clock := 1000, db := {} } answeredTwice).db.calls.rows.map
        (fun c => (c.callId, c.status, c.createdAt))) =
          [(plainCallId 6, .active, 1000), (plainCallId 7, .active, 1031)] ∧
      ((run (step plainEnv) { clock := 1000, db := {} } answeredTwice).db.callTargets.rows.map
        (fun t => (t.callId, t.deviceId))) = [(plainCallId 6, "b"), (plainCallId 7, "b")] := by
  refine ⟨?_, by decide +kernel⟩
  apply monotoneClock_of_plain [(1000, 0), (1000, 1), (1000, 2), (1000, 3), (1000, 4), (1000, 5),
    (1000, 6), (1031, 7), (1031, 8), (2 ^ 32 + 1000, 9)] rfl
  decide

end Runs

end Server

end TriNet.CallApi
