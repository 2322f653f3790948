import TriNet.Lib.Budget
import TriNet.Video.Bridge

namespace TriNet.Video

open Lib.BigEndian Lib.Runs Lib.Budget

namespace Path

theorem rate_pos (cfg : Config) (path : Path) : 0 < path.rate cfg := by
  cases path <;> simp [rate, audioRatePerSec]

end Path

/-- One pass of a sending loop: the clock at its top, and the datagram that came
before the read timed out, if any. -/
structure Turn where
  path : Path
  now : Nat
  datagram : Option Bytes

def readTimeout : Nat := 5 * second

/-- A loop comes to its top again once a datagram has come or the read has timed
out. -/
def Timed (es : List Turn) : Prop :=
  es.Pairwise (fun e e' => e.path = e'.path →
    e.now + (if e.datagram.isSome then 0 else readTimeout) ≤ e'.now)

/-- A sending thread with what it has sent, and the windows it has been through. -/
structure Meter where
  sender : Sender
  panicked : Bool
  windows : Nat
  sent : Nat

namespace Meter

def start (now : Nat) : Meter := ⟨⟨0, 0, now⟩, false, 1, 0⟩

def Closes (m : Meter) (now : Nat) : Prop := now - m.sender.windowStart ≥ second

instance (m : Meter) (now : Nat) : Decidable (m.Closes now) := inferInstanceAs (Decidable (_ ≥ _))

def pass (cfg : Config) (path : Path) (m : Meter) (now : Nat) (datagram : Option Bytes) : Meter :=
  if m.panicked then m
  else
    let windows := if m.Closes now then m.windows + 1 else m.windows
    match datagram with
    | none => { m with sender := m.sender.refresh (path.rate cfg) now, windows }
    | some d =>
        match m.sender.send cfg path now d with
        | (sender, .dropped) => { m with sender, windows }
        | (sender, .panicked) => { m with sender, windows, panicked := true }
        | (sender, .sent _ packets) => { m with sender, windows, sent := m.sent + packets.length }

def account (m : Meter) : Account := ⟨m.sender.spent, m.windows, m.sent⟩

def events (cfg : Config) (path : Path) (m : Meter) (now : Nat) (datagram : Option Bytes) : List Event :=
  if m.panicked then []
  else (if m.Closes now then [.close] else []) ++
    (datagram.map (fun d => .charge (path.cost cfg d))).toList

end Meter

structure Egress where
  uplink : Meter
  express : Meter

namespace Egress

def start (now now' : Nat) : Egress := ⟨.start now, .start now'⟩

def meter (s : Egress) : Path → Meter
  | .uplink => s.uplink
  | .express => s.express

def step (cfg : Config) (s : Egress) (e : Turn) : Egress :=
  match e.path with
  | .uplink => { s with uplink := s.uplink.pass cfg .uplink e.now e.datagram }
  | .express => { s with express := s.express.pass cfg .express e.now e.datagram }

def sent (s : Egress) : Nat := s.uplink.sent + s.express.sent

end Egress

namespace Meter

variable {cfg : Config} {path : Path} {m : Meter} {now : Nat} {datagram : Option Bytes}

def windowsAt (m : Meter) (now : Nat) : Nat := if m.Closes now then m.windows + 1 else m.windows

theorem account_refresh (m : Meter) (rate now : Nat) :
    (⟨(m.sender.refresh rate now).spent, m.windowsAt now, m.sent⟩ : Account) =
      run (Lib.Budget.step rate) m.account (if m.Closes now then [.close] else []) := by
  by_cases hclose : m.Closes now
  · have hover : now - m.sender.windowStart ≥ second := hclose
    rw [windowsAt, if_pos hclose, if_pos hclose, Sender.refresh, if_pos hover]
    rfl
  · have hover : ¬now - m.sender.windowStart ≥ second := hclose
    rw [windowsAt, if_neg hclose, if_neg hclose, Sender.refresh, if_neg hover]
    rfl

/-- A sending loop does with its counters what a budget does. -/
theorem account_pass (cfg : Config) (path : Path) (m : Meter) (now : Nat) (datagram : Option Bytes) :
    (m.pass cfg path now datagram).account =
      run (Lib.Budget.step (path.rate cfg)) m.account (m.events cfg path now datagram) := by
  rw [pass, events]
  split
  · rfl
  rw [run_append, ← account_refresh, ← windowsAt]
  cases datagram with
  | none => rfl
  | some d =>
      simp only [Option.map_some, Option.toList_some, run, List.foldl_cons, List.foldl_nil,
        Lib.Budget.step, Sender.send]
      by_cases hfull : (m.sender.refresh (path.rate cfg) now).spent ≥ path.rate cfg
      · rw [if_pos hfull, if_pos hfull]
        rfl
      rw [if_neg hfull, if_neg hfull]
      cases hpackets : path.packets cfg
        (path.wireSeq (((m.sender.refresh (path.rate cfg) now).seq + 1) % 65536)) d with
      | none =>
          obtain ⟨rfl, hzero, _⟩ := Path.packets_eq_none.mp hpackets
          simp [account, Path.cost, hzero, fecGroupCount]
      | some packets => simp [account, Path.length_packets hpackets]

end Meter

theorem Meter.covered_pass {cfg : Config} (path : Path) {m : Meter} {now : Nat} (datagram : Option Bytes)
    (h : Covered (path.rate cfg) path.mostCost m.account)
    (hsettles : m.Closes now → m.sender.spent ≤ 2 * path.rate cfg) :
    Covered (path.rate cfg) path.mostCost (m.pass cfg path now datagram).account := by
  have hcharge (b : Account) :
      Along (Lib.Budget.step (path.rate cfg)) (Fair (path.rate cfg) path.mostCost) b
      (datagram.map (fun d => Event.charge (path.cost cfg d))).toList := by
    cases datagram with
    | none => trivial
    | some d => exact ⟨path.cost_le cfg d, trivial⟩
  rw [account_pass]
  apply h.run
  rw [events]
  split
  · trivial
  · split
    · next hclose => exact ⟨hsettles hclose, hcharge _⟩
    · exact hcharge _

namespace Egress

variable {cfg : Config} {s : Egress} {e : Turn}

def Settles (cfg : Config) (s : Egress) (e : Turn) : Prop :=
  (s.meter e.path).Closes e.now → (s.meter e.path).sender.spent ≤ 2 * e.path.rate cfg

instance (cfg : Config) (s : Egress) (e : Turn) :
    Decidable (Settles cfg s e) := inferInstanceAs (Decidable (_ → _))

def Metered (cfg : Config) (s : Egress) : Prop :=
  ∀ path : Path, Covered (path.rate cfg) path.mostCost (s.meter path).account

theorem Metered.start (now now' : Nat) : Metered cfg (start now now') := by
  intro path
  have hpos := path.rate_pos cfg
  have haccount : ((Egress.start now now').meter path).account = ⟨0, 1, 0⟩ := by cases path <;> rfl
  rw [haccount]
  exact ⟨Nat.lt_of_lt_of_le hpos (Nat.le_add_right ..), by simp⟩

theorem meter_step_self (cfg : Config) (s : Egress) (e : Turn) :
    (step cfg s e).meter e.path = (s.meter e.path).pass cfg e.path e.now e.datagram := by
  obtain ⟨path, now, datagram⟩ := e
  cases path <;> simp only [step, meter]

theorem meter_step_of_ne {path : Path} (h : path ≠ e.path) : (step cfg s e).meter path = s.meter path := by
  obtain ⟨path', now, datagram⟩ := e
  cases path' <;> cases path <;> first | exact absurd rfl h | simp only [step, meter]

theorem Metered.step (h : Metered cfg s) (he : Settles cfg s e) : Metered cfg (step cfg s e) := by
  intro path
  by_cases hpath : path = e.path
  · subst hpath
    rw [meter_step_self]
    exact Meter.covered_pass e.path e.datagram (h e.path) he
  · rw [meter_step_of_ne hpath]
    exact h path

theorem Metered.spent_lt (h : Metered cfg s) (hbits : cfg.fragRate + 71 ≤ 2 ^ 32) (path : Path) :
    (s.meter path).sender.spent < 2 ^ 32 :=
  Nat.lt_of_lt_of_le (h path).spent (Path.rate_add_mostCost_le hbits path)

/-- If the two shares add up to the configured rate and no debt is ever
forgiven, the two classes together keep to the rate, but for one datagram each. -/
theorem sent_within_rate {cfg : Config} (hrate : 200 < cfg.fragRate)
    (hbits : cfg.fragRate + 71 ≤ 2 ^ 32) (now now' : Nat)
    (es : List Turn) (hes : Along (step cfg) (Settles cfg) (start now now') es) (k : Nat)
    (huplink : (run (step cfg) (start now now') es).uplink.windows ≤ k)
    (hexpress : (run (step cfg) (start now now') es).express.windows ≤ k) :
    (run (step cfg) (start now now') es).sent ≤ k * cfg.fragRate + 524 ∧
      ∀ path, ((run (step cfg) (start now now') es).meter path).sender.spent < 2 ^ 32 := by
  have hmetered : Metered cfg (run (step cfg) (start now now') es) :=
    run_along (step cfg) (Settles cfg) (Metered cfg) (fun _ _ hs he => hs.step he) _ es
      (.start now now') hes
  generalize run (step cfg) (start now now') es = s at *
  refine ⟨?_, hmetered.spent_lt hbits⟩
  have hup : s.uplink.sent < s.uplink.windows * (cfg.fragRate - 200) + 271 := by
    have := (hmetered .uplink).sent_lt
    rwa [Path.rate, audioRatePerSec, max_eq_left (by omega)] at this
  have hexp : s.express.sent < s.express.windows * 200 + 255 := (hmetered .express).sent_lt
  calc s.sent ≤ s.uplink.windows * (cfg.fragRate - 200) + s.express.windows * 200 + 524 := by
        rw [sent]
        omega
    _ ≤ k * (cfg.fragRate - 200) + k * 200 + 524 := by gcongr
    _ = k * cfg.fragRate + 524 := by
        rw [← Nat.mul_add, Nat.sub_add_cancel (Nat.le_of_lt hrate)]

theorem sent_within_rate_twoWindows :
    (run (step ⟨800, true, false⟩) (start 0 0)
        [⟨.uplink, 0, some [7]⟩, ⟨.express, 5, some [1, 2]⟩, ⟨.uplink, second, some [8]⟩]).sent ≤
          2 * 800 + 524 ∧
      ∀ path, ((run (step ⟨800, true, false⟩) (start 0 0)
        [⟨.uplink, 0, some [7]⟩, ⟨.express, 5, some [1, 2]⟩, ⟨.uplink, second, some [8]⟩]).meter
          path).sender.spent < 2 ^ 32 := by
  apply sent_within_rate (by decide) (by decide)
  all_goals decide

end Egress

structure Meter.At (m : Meter) (spent windowStart windows sent : Nat) : Prop where
  up : m.panicked = false
  spent : m.sender.spent = spent
  windowStart : m.sender.windowStart = windowStart
  windows : m.windows = windows
  sent : m.sent = sent

namespace Meter

variable {m : Meter} {spent windowStart windows sent : Nat}

theorem At.send (h : m.At spent windowStart windows sent) (cfg : Config) (path : Path)
    {now : Nat} {d : Bytes}
    (hnow : now - windowStart < second) (hspent : spent < path.rate cfg)
    (hd : fragmentCount d.length ≠ 0) :
    (m.pass cfg path now (some d)).At (spent + path.cost cfg d) windowStart windows
      (sent + path.cost cfg d) := by
  have hclose : ¬m.Closes now := by
    rw [Closes, h.windowStart]
    exact Nat.not_le.mpr hnow
  have hrefresh : m.sender.refresh (path.rate cfg) now = m.sender := if_neg hclose
  have hopen : ¬path.rate cfg ≤ spent := Nat.not_le.mpr hspent
  obtain ⟨packets, hpackets⟩ :
      ∃ packets, path.packets cfg (path.wireSeq ((m.sender.seq + 1) % 65536)) d = some packets := by
    apply Option.ne_none_iff_exists'.mp
    intro hnone
    exact hd (Path.packets_eq_none.mp hnone).2.1
  have hlen := Path.length_packets hpackets
  refine ⟨?_, ?_, ?_, ?_, ?_⟩
  all_goals simp [pass, h.up, Sender.send, hrefresh, hclose, hopen, hpackets, hlen, h.spent,
    h.windows, h.sent, h.windowStart]

theorem At.drop (h : m.At spent windowStart windows sent) (cfg : Config) (path : Path) {now : Nat}
    (d : Bytes) (hnow : now - windowStart < second) (hspent : path.rate cfg ≤ spent) :
    (m.pass cfg path now (some d)).At spent windowStart windows sent := by
  have hclose : ¬m.Closes now := by
    rw [Closes, h.windowStart]
    exact Nat.not_le.mpr hnow
  have hrefresh : m.sender.refresh (path.rate cfg) now = m.sender := if_neg hclose
  refine ⟨?_, ?_, ?_, ?_, ?_⟩
  all_goals simp [pass, h.up, Sender.send, hrefresh, hclose, hspent, h.spent, h.windows,
    h.sent, h.windowStart]

/-- A pass at this time goes as it does with these counters, whether or not it
has yet to open their window. -/
structure Opens (cfg : Config) (path : Path) (m : Meter) (spent now windows sent : Nat) : Prop where
  windows_le : m.windows ≤ windows
  sent_eq : m.sent = sent
  pass : ∃ m' : Meter, m'.At spent now windows sent ∧ ∀ d, m.pass cfg path now d = m'.pass cfg path now d

theorem At.opens (h : m.At spent windowStart windows sent) (cfg : Config) (path : Path) {now : Nat}
    (hnow : now - windowStart ≥ second) :
    m.Opens cfg path (min (spent - path.rate cfg) (path.rate cfg)) now (windows + 1) sent := by
  have hclose : m.Closes now := by rwa [Closes, h.windowStart]
  have hrefresh : m.sender.refresh (path.rate cfg) now =
      { m.sender with
        spent := min (m.sender.spent - path.rate cfg) (path.rate cfg), windowStart := now } :=
    if_pos hclose
  have hsecond : ¬(0 : Nat) ≥ second := by decide
  refine ⟨by rw [h.windows]; exact Nat.le_succ windows, h.sent,
    ⟨m.sender.refresh (path.rate cfg) now, false, m.windows + 1, m.sent⟩, ?_, fun d => ?_⟩
  · exact ⟨rfl, by rw [hrefresh, h.spent], by rw [hrefresh], by rw [h.windows], h.sent⟩
  · have hagain : (m.sender.refresh (path.rate cfg) now).refresh (path.rate cfg) now =
        m.sender.refresh (path.rate cfg) now := by
      rw [hrefresh, Sender.refresh, Nat.sub_self, if_neg hsecond]
    have hopen : ¬Closes ⟨m.sender.refresh (path.rate cfg) now, false, m.windows + 1, m.sent⟩ now := by
      rw [Closes, hrefresh, Nat.sub_self]
      exact hsecond
    simp only [Meter.pass, h.up, Sender.send, hagain, hclose, hopen, if_true, if_false, Bool.false_eq_true]

end Meter

namespace Egress

def filler (n : Nat) : Bytes := List.replicate n 0

def millisecond : Nat := 1000000

/-- Two seconds, as the path, the time and the size of each datagram. Video uses
its share and audio runs up a debt of more than one window; a datagram of one
byte comes at the turn of every second and is dropped. -/
def beats : List (Path × Nat × Nat) :=
  [(.uplink, 0, 13160), (.uplink, 332 * millisecond, 13160), (.uplink, 666 * millisecond, 13160),
    (.uplink, 999 * millisecond, 1),
    (.uplink, second, 13160), (.uplink, second + 332 * millisecond, 13160),
    (.uplink, second + 666 * millisecond, 13160), (.uplink, second + 999 * millisecond, 1),
    (.express, 0, 13930), (.express, millisecond, 17850), (.express, 2 * millisecond, 1),
      (.express, second, 1)]

def cycle (now : Nat) : List Turn := beats.map (fun b => ⟨b.1, now + b.2.1, some (filler b.2.2)⟩)

theorem fragmentCount_filler {n : Nat} (hn : 0 < n ∧ n ≤ 17850) : fragmentCount (filler n).length ≠ 0 := by
  rw [filler, List.length_replicate, fragmentCount_of_le hn.1 hn.2]
  omega

theorem cost_filler (cfg : Config) (path : Path) (n : Nat) :
    path.cost cfg (filler n) =
      fragmentCount n + if path = .uplink ∧ cfg.fecEnabled = true then
        fecGroupCount (fragmentCount n) else 0 := by
  cases path <;> simp [Path.cost, filler]

def defaults : Config := ⟨800, true, false⟩

theorem later (now : Nat) : now + second - now ≥ second := by omega

structure Recurs (s : Egress) (now n : Nat) : Prop where
  uplink : s.uplink.Opens defaults .uplink 0 now (2 * n + 1) (1200 * n)
  express : s.express.Opens defaults .express 0 now (2 * n + 1) (454 * n)

theorem video_window {m : Meter} {now windows sent : Nat}
    (h : m.Opens defaults .uplink 0 now windows sent) :
    ((((m.pass defaults .uplink now (some (filler 13160))).pass defaults .uplink
      (now + 332 * millisecond) (some (filler 13160))).pass defaults .uplink
        (now + 666 * millisecond) (some (filler 13160))).pass defaults .uplink
          (now + 999 * millisecond) (some (filler 1))).Opens defaults .uplink 0 (now + second)
            (windows + 1) (sent + 600) := by
  have hcost : Path.uplink.cost defaults (filler 13160) = 200 := by
    rw [cost_filler]
    decide
  have hframes : fragmentCount (filler 13160).length ≠ 0 := fragmentCount_filler (by decide)
  have hstart : now - now < second := by rw [Nat.sub_self]; decide
  have hwithin (t : Nat) (ht : t < second) : now + t - now < second := by omega
  obtain ⟨m', h₀, hpass⟩ := h.pass
  rw [hpass]
  have h₁ := h₀.send defaults .uplink hstart (by decide) hframes
  rw [hcost] at h₁
  have h₂ := h₁.send defaults .uplink (hwithin (332 * millisecond) (by decide)) (by decide) hframes
  rw [hcost] at h₂
  have h₃ := h₂.send defaults .uplink (hwithin (666 * millisecond) (by decide)) (by decide) hframes
  rw [hcost] at h₃
  have h₄ := h₃.drop defaults .uplink (filler 1) (hwithin (999 * millisecond) (by decide)) (by decide)
  have hspent : min (0 + 200 + 200 + 200 - Path.uplink.rate defaults) (Path.uplink.rate defaults) =
      0 := by decide
  have h₅ := h₄.opens defaults .uplink (later now)
  rwa [hspent, Nat.add_assoc, Nat.add_assoc] at h₅

theorem audio_windows {m : Meter} {now windows sent : Nat}
    (h : m.Opens defaults .express 0 now windows sent) :
    ((((m.pass defaults .express now (some (filler 13930))).pass defaults .express
      (now + millisecond) (some (filler 17850))).pass defaults .express
        (now + 2 * millisecond) (some (filler 1))).pass defaults .express
          (now + second) (some (filler 1))).Opens defaults .express 0 (now + second + second)
            (windows + 2) (sent + 454) := by
  have hcost : Path.express.cost defaults (filler 13930) = 199 := by
    rw [cost_filler]
    decide
  have hcost' : Path.express.cost defaults (filler 17850) = 255 := by
    rw [cost_filler]
    decide
  have hstart : now - now < second := by rw [Nat.sub_self]; decide
  have hwithin (t : Nat) (ht : t < second) : now + t - now < second := by omega
  obtain ⟨m', h₀, hpass⟩ := h.pass
  rw [hpass]
  -- 199 packets leave the budget open for 255 more, and 54 of the debt are forgiven
  have h₁ := h₀.send defaults .express hstart (by decide)
    (fragmentCount_filler (n := 13930) (by decide))
  rw [hcost] at h₁
  have h₂ := h₁.send defaults .express (hwithin millisecond (by decide)) (by decide)
    (fragmentCount_filler (n := 17850) (by decide))
  rw [hcost'] at h₂
  have h₃ := h₂.drop defaults .express (filler 1) (hwithin (2 * millisecond) (by decide)) (by decide)
  obtain ⟨m'', h₄, hpass'⟩ := (h₃.opens defaults .express (later now)).pass
  rw [hpass']
  have h₅ := h₄.drop defaults .express (filler 1) (by rw [Nat.sub_self]; decide) (by decide)
  have hspent : min (min (0 + 199 + 255 - Path.express.rate defaults) (Path.express.rate defaults) -
      Path.express.rate defaults) (Path.express.rate defaults) = 0 := by decide
  have h₆ := h₅.opens defaults .express (later (now + second))
  rwa [hspent, Nat.add_assoc sent, Nat.add_assoc windows] at h₆

theorem Recurs.cycle {s : Egress} {now n : Nat} (h : s.Recurs now n) :
    (run (step defaults) s (cycle now)).Recurs (now + second + second) (n + 1) := by
  have hvideo := video_window (video_window h.uplink)
  have haudio := audio_windows h.express
  simp only [run, Egress.cycle, beats, List.map_cons, List.map_nil, List.foldl_cons, List.foldl_nil,
    step, Nat.add_zero, ← Nat.add_assoc]
  constructor
  · exact hvideo
  · exact haudio

theorem timed_cycle (now : Nat) : Timed (cycle now) := by
  have hbeats : beats.Pairwise (fun b b' => b.1 = b'.1 → b.2.1 ≤ b'.2.1) := by decide
  refine List.pairwise_map.mpr (hbeats.imp ?_)
  intro b b' hle hpath
  exact Nat.add_le_add_left (hle hpath) now

theorem bounds_of_mem_cycle {now : Nat} {e : Turn} (he : e ∈ cycle now) :
    e.datagram.isSome = true ∧ now ≤ e.now ∧ e.now ≤ now + second + second := by
  have hbeats : ∀ b ∈ beats, b.2.1 ≤ second + second := by decide
  obtain ⟨b, hb, rfl⟩ := List.mem_map.mp he
  have hle := hbeats b hb
  exact ⟨rfl, Nat.le_add_right .., by dsimp only; omega⟩

theorem exists_recurs (n : Nat) :
    ∃ es now, Timed es ∧ (∀ e ∈ es, e.datagram.isSome = true ∧ e.now ≤ now) ∧
      (run (step defaults) (start 0 0) es).Recurs now n := by
  induction n with
  | zero =>
      refine ⟨[], 0, .nil, fun e he => absurd he List.not_mem_nil, ?_, ?_⟩
      · exact ⟨Nat.le_refl 1, rfl, _, ⟨rfl, rfl, rfl, rfl, rfl⟩, fun _ => rfl⟩
      · exact ⟨Nat.le_refl 1, rfl, _, ⟨rfl, rfl, rfl, rfl, rfl⟩, fun _ => rfl⟩
  | succ n ih =>
      obtain ⟨es, now, htimed, hpast, h⟩ := ih
      refine ⟨es ++ Egress.cycle now, now + second + second, ?_, ?_, ?_⟩
      · refine List.pairwise_append.mpr ⟨htimed, timed_cycle now, ?_⟩
        intro e he e' he' _
        obtain ⟨hsome, hle⟩ := hpast e he
        obtain ⟨_, hge, _⟩ := bounds_of_mem_cycle he'
        rw [if_pos hsome]
        omega
      · intro e he
        obtain he | he := List.mem_append.mp he
        · obtain ⟨hsome, hle⟩ := hpast e he
          exact ⟨hsome, by omega⟩
        · obtain ⟨hsome, _, hle⟩ := bounds_of_mem_cycle he
          exact ⟨hsome, hle⟩
      · rw [run_append]
        exact h.cycle

/-- At the default rate no constant covers what the two classes send beyond it:
every two windows audio is forgiven 54 packets. -/
theorem rate_exceeded_without_bound :
    ¬∃ C, ∀ k es, Timed es → (run (step defaults) (start 0 0) es).uplink.windows ≤ k →
      (run (step defaults) (start 0 0) es).express.windows ≤ k →
        (run (step defaults) (start 0 0) es).sent ≤ k * 800 + C := by
  rintro ⟨C, hbound⟩
  obtain ⟨es, now, htimed, _, h⟩ := exists_recurs (C + 15)
  have hle := hbound (2 * (C + 15) + 1) es htimed h.uplink.windows_le h.express.windows_le
  rw [sent, h.uplink.sent_eq, h.express.sent_eq] at hle
  omega

end Egress

end TriNet.Video
