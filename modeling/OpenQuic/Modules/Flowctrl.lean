import OpenQuic.Base

/-!
# Flow control

The connection's flow control (`modules/conn_flowctrl.h`) and that of one stream
(`modules/stream_flowctrl.c`).

* `ConnFlowctrl`     the connection: `incrementRecv`, `read`, `ensureMinRwndSize`;
* `StreamFlowctrl`   a stream: `updateRwnd`, `updateSwnd`, `read`, `abandon`, `sent`, `newlyBlocked`;
* `StreamFlowctrl.read_spec`, `updateRwnd_spec`   what a read and a frame do to the offsets.

`rtt` is `quic_congestion_smoothed_rtt` and `now` is `quic_now()`; the clock is read once for each
operation.  An operation has no result where the code divides by zero.
-/

namespace OpenQuic
open Word

structure ConnFlowctrl where
  rwnd : Nat
  rwndSize : Nat
  recvOff : Nat
  readOff : Nat
  swnd : Nat
  sentBytes : Nat
  epochOff : Nat
  epochTime : Time
  updated : Bool
  deriving DecidableEq, Repr

namespace ConnFlowctrl

def init (cfg : Config) : ConnFlowctrl where
  rwnd := cfg.connFlowctrlInitialRwnd
  rwndSize := cfg.connFlowctrlMaxRwndSize
  recvOff := 0
  readOff := 0
  swnd := cfg.connFlowctrlInitialSwnd
  sentBytes := 0
  epochOff := 0
  epochTime := 0
  updated := false

def incrementRecv (m : ConnFlowctrl) (increment : Nat) : ConnFlowctrl :=
  { m with recvOff := add64 m.recvOff increment }

/-- the comparison that the code makes before it halves the window -/
def fastReader (rtt now : Nat) (m : ConnFlowctrl) : Bool :=
  sub64 now m.epochTime < mul64 (rtt / 4) (sub64 m.readOff m.epochOff) / m.rwndSize

def adjustRwnd (cfg : Config) (rtt now : Nat) (m : ConnFlowctrl) : Option ConnFlowctrl :=
  if sub64 m.readOff m.epochOff ≤ m.rwndSize / 2 ∨ rtt = 0 then some m
  else if m.rwndSize = 0 then none
  else
    let rwndSize := if fastReader rtt now m then min (m.rwndSize / 2) cfg.connFlowctrlMaxRwndSize
      else m.rwndSize
    some { m with
      rwndSize := rwndSize
      epochTime := now
      epochOff := m.readOff
      rwnd := add64 m.readOff rwndSize }

def ensureMinRwndSize (cfg : Config) (now : Nat) (m : ConnFlowctrl) (rwndSize : Nat) :
    ConnFlowctrl :=
  if m.rwndSize < rwndSize then
    { m with
      rwndSize := min rwndSize cfg.connFlowctrlMaxRwndSize
      epochTime := now
      epochOff := m.rwnd }
  else m

def updateRwnd (m : ConnFlowctrl) : ConnFlowctrl := { m with updated := true }

def read (cfg : Config) (rtt now : Nat) (m : ConnFlowctrl) (bytes : Nat) : Option ConnFlowctrl :=
  let m := if m.readOff = 0 then { m with epochOff := 0, epochTime := now } else m
  let m := { m with readOff := add64 m.readOff bytes }
  if sub64 m.rwnd m.readOff ≤ mul64 m.rwndSize 3 / 4 then (adjustRwnd cfg rtt now m).map updateRwnd
  else some m

end ConnFlowctrl

structure StreamFlowctrl where
  rwnd : Nat
  rwndSize : Nat
  recvOff : Nat
  readOff : Nat
  finFlag : Bool
  swnd : Nat
  sentBytes : Nat
  lastBlockedAt : Nat
  epochOff : Nat
  epochTime : Time
  deriving DecidableEq, Repr

namespace StreamFlowctrl

/-- `quic_stream_flowctrl_instance_init` -/
def init (cfg : Config) : StreamFlowctrl where
  rwnd := cfg.streamFlowctrlInitialRwnd
  rwndSize := cfg.streamFlowctrlInitialRwnd
  recvOff := 0
  readOff := 0
  finFlag := false
  swnd := cfg.streamFlowctrlInitialSwnd
  sentBytes := 0
  lastBlockedAt := 0
  epochOff := 0
  epochTime := 0

def updateRwnd (fc : StreamFlowctrl) (conn : ConnFlowctrl) (off : Nat) (fin : Bool) :
    StreamFlowctrl × ConnFlowctrl :=
  if fc.finFlag ∧ ((fin ∧ off ≠ fc.recvOff) ∨ fc.recvOff < off) then (fc, conn)
  else
    let fc := { fc with finFlag := fc.finFlag || fin }
    if off ≤ fc.recvOff then (fc, conn)
    else ({ fc with recvOff := off }, conn.incrementRecv (sub64 off fc.recvOff))

def updateSwnd (fc : StreamFlowctrl) (off : Nat) : StreamFlowctrl :=
  if fc.swnd < off then { fc with swnd := off } else fc

def abandon (cfg : Config) (rtt now : Nat) (fc : StreamFlowctrl) (conn : ConnFlowctrl) :
    Option ConnFlowctrl :=
  let unreadBytes := sub64 fc.recvOff fc.readOff
  if 0 < unreadBytes then conn.read cfg rtt now unreadBytes else some conn

def getSwnd (fc : StreamFlowctrl) : Nat :=
  if fc.swnd < fc.sentBytes then 0 else sub64 fc.swnd fc.sentBytes

def sent (fc : StreamFlowctrl) (sentBytes : Nat) : StreamFlowctrl :=
  { fc with sentBytes := add64 fc.sentBytes sentBytes }

/-- `adjust_rwnd` of a stream doubles the window, up to the configured maximum, and makes the
connection's follow -/
def adjustRwnd (cfg : Config) (rtt now : Nat) (fc : StreamFlowctrl) (conn : ConnFlowctrl) :
    Option (StreamFlowctrl × ConnFlowctrl) :=
  let inEpochReadedBytes := sub64 fc.readOff fc.epochOff
  if inEpochReadedBytes ≤ fc.rwndSize / 2 ∨ rtt = 0 then some (fc, conn)
  else if fc.rwndSize = 0 then none
  else
    let fast := sub64 now fc.epochTime < mul64 (shl64 rtt 2) inEpochReadedBytes / fc.rwndSize
    let rwndSize := if fast then min (shl64 fc.rwndSize 1) cfg.streamFlowctrlMaxRwndSize
      else fc.rwndSize
    some ({ fc with
        rwndSize := rwndSize
        epochTime := now
        epochOff := fc.readOff
        rwnd := add64 fc.readOff rwndSize },
      if fc.rwndSize < rwndSize then conn.ensureMinRwndSize cfg now (mul64 rwndSize 3 / 4) else conn)

/-- The last component is whether `quic_stream_module_update_rwnd` is called for the stream. -/
def read (cfg : Config) (rtt now : Nat) (fc : StreamFlowctrl) (conn : ConnFlowctrl)
    (readedBytes : Nat) : Option (StreamFlowctrl × ConnFlowctrl × Bool) := do
  let fc := if fc.readOff = 0 then { fc with epochOff := 0, epochTime := now } else fc
  let fc := { fc with readOff := add64 fc.readOff readedBytes }
  let update := !fc.finFlag &&
    (fc.rwnd ≤ fc.readOff || sub64 fc.rwnd fc.readOff ≤ mul64 fc.rwndSize 3 / 4)
  let (fc, conn) ← if update then
      (fc.adjustRwnd cfg rtt now conn).map fun x =>
        ({ x.1 with rwnd := add64 x.1.readOff x.1.rwndSize }, x.2)
    else some (fc, conn)
  let conn ← conn.read cfg rtt now readedBytes
  return (fc, conn, update)

/-- the limit to report, once for each window -/
def newlyBlocked (fc : StreamFlowctrl) : Option Nat × StreamFlowctrl :=
  if fc.getSwnd ≠ 0 ∨ fc.swnd = fc.lastBlockedAt then (none, fc)
  else (some fc.swnd, { fc with lastBlockedAt := fc.swnd })

end StreamFlowctrl

/-! ## what the operations do to the offsets -/

namespace ConnFlowctrl

theorem adjustRwnd_spec {cfg : Config} {rtt now : Nat} {m m' : ConnFlowctrl}
    (h : adjustRwnd cfg rtt now m = some m') : m'.recvOff = m.recvOff ∧ m'.readOff = m.readOff := by
  unfold adjustRwnd at h
  split at h
  · rw [← Option.some.inj h]
    exact ⟨rfl, rfl⟩
  · split at h
    · cases h
    · rw [← Option.some.inj h]
      exact ⟨rfl, rfl⟩

theorem read_spec {cfg : Config} {rtt now bytes : Nat} {m m' : ConnFlowctrl}
    (h : read cfg rtt now m bytes = some m') :
    m'.recvOff = m.recvOff ∧ m'.readOff = add64 m.readOff bytes := by
  unfold read at h
  extract_lets m1 m2 at h
  have h1 : m2.recvOff = m.recvOff ∧ m2.readOff = add64 m.readOff bytes := by
    show m1.recvOff = _ ∧ add64 m1.readOff bytes = _
    have : m1.recvOff = m.recvOff ∧ m1.readOff = m.readOff := by
      show (if m.readOff = 0 then _ else _ : ConnFlowctrl).recvOff = _ ∧
        (if m.readOff = 0 then _ else _ : ConnFlowctrl).readOff = _
      split <;> exact ⟨rfl, rfl⟩
    rw [this.1, this.2]
    exact ⟨rfl, rfl⟩
  clear_value m2
  split at h
  · obtain ⟨m3, hm3, h3⟩ := Option.map_eq_some_iff.mp h
    obtain ⟨h4, h5⟩ := adjustRwnd_spec hm3
    rw [← h3]
    exact ⟨h4.trans h1.1, h5.trans h1.2⟩
  · rw [← Option.some.inj h]
    exact h1

theorem ensureMinRwndSize_spec (cfg : Config) (now : Nat) (m : ConnFlowctrl) (rwndSize : Nat) :
    (ensureMinRwndSize cfg now m rwndSize).recvOff = m.recvOff ∧
      (ensureMinRwndSize cfg now m rwndSize).readOff = m.readOff := by
  unfold ensureMinRwndSize
  split <;> exact ⟨rfl, rfl⟩

end ConnFlowctrl

namespace StreamFlowctrl

theorem adjustRwnd_spec {cfg : Config} {rtt now : Nat} {fc : StreamFlowctrl} {conn : ConnFlowctrl}
    {x : StreamFlowctrl × ConnFlowctrl} (h : adjustRwnd cfg rtt now fc conn = some x) :
    x.1.recvOff = fc.recvOff ∧ x.1.readOff = fc.readOff ∧ x.1.finFlag = fc.finFlag ∧
      x.2.recvOff = conn.recvOff ∧ x.2.readOff = conn.readOff := by
  unfold adjustRwnd at h
  extract_lets bytes at h
  split at h
  · rw [← Option.some.inj h]
    exact ⟨rfl, rfl, rfl, rfl, rfl⟩
  · split at h
    · cases h
    · rw [← Option.some.inj h]
      refine ⟨rfl, rfl, rfl, ?_⟩
      show (if _ then _ else _ : ConnFlowctrl).recvOff = _ ∧
        (if _ then _ else _ : ConnFlowctrl).readOff = _
      split
      · exact ConnFlowctrl.ensureMinRwndSize_spec cfg now conn _
      · exact ⟨rfl, rfl⟩

/-- A read counts its bytes at the stream and at the connection. -/
theorem read_spec {cfg : Config} {rtt now bytes : Nat} {fc : StreamFlowctrl} {conn : ConnFlowctrl}
    {x : StreamFlowctrl × ConnFlowctrl × Bool} (h : read cfg rtt now fc conn bytes = some x) :
    x.1.recvOff = fc.recvOff ∧ x.1.finFlag = fc.finFlag ∧
      x.1.readOff = add64 fc.readOff bytes ∧
      x.2.1.recvOff = conn.recvOff ∧ x.2.1.readOff = add64 conn.readOff bytes := by
  unfold read at h
  extract_lets fc1 fc2 update jp at h
  have h1 : fc2.recvOff = fc.recvOff ∧ fc2.finFlag = fc.finFlag ∧
      fc2.readOff = add64 fc.readOff bytes := by
    show fc1.recvOff = _ ∧ fc1.finFlag = _ ∧ add64 fc1.readOff bytes = _
    have : fc1.recvOff = fc.recvOff ∧ fc1.finFlag = fc.finFlag ∧ fc1.readOff = fc.readOff := by
      show (if fc.readOff = 0 then _ else _ : StreamFlowctrl).recvOff = _ ∧
        (if fc.readOff = 0 then _ else _ : StreamFlowctrl).finFlag = _ ∧
        (if fc.readOff = 0 then _ else _ : StreamFlowctrl).readOff = _
      split <;> exact ⟨rfl, rfl, rfl⟩
    rw [this.1, this.2.1, this.2.2]
    exact ⟨rfl, rfl, rfl⟩
  clear_value fc2
  -- the connection's part follows
  have hconn : ∀ y : StreamFlowctrl × ConnFlowctrl, y.1.recvOff = fc.recvOff →
      y.1.finFlag = fc.finFlag → y.1.readOff = add64 fc.readOff bytes →
      y.2.recvOff = conn.recvOff → y.2.readOff = conn.readOff → jp y = some x →
      x.1.recvOff = fc.recvOff ∧ x.1.finFlag = fc.finFlag ∧ x.1.readOff = add64 fc.readOff bytes ∧
        x.2.1.recvOff = conn.recvOff ∧ x.2.1.readOff = add64 conn.readOff bytes := by
    intro y h3 h4 h5 h6 h7 hy
    obtain ⟨conn', hc, hx⟩ := Option.bind_eq_some_iff.mp hy
    obtain ⟨h8, h9⟩ := ConnFlowctrl.read_spec hc
    rw [← Option.some.inj hx]
    refine ⟨h3, h4, h5, h8.trans h6, ?_⟩
    rw [← h7]
    exact h9
  clear_value update jp
  split at h
  · obtain ⟨y, hy, hrest⟩ := Option.bind_eq_some_iff.mp h
    obtain ⟨z, hz, hzy⟩ := Option.map_eq_some_iff.mp hy
    obtain ⟨h3, h4, h5, h6, h7⟩ := adjustRwnd_spec hz
    refine hconn y ?_ ?_ ?_ ?_ ?_ hrest <;> rw [← hzy]
    · exact h3.trans h1.1
    · exact h5.trans h1.2.1
    · exact h4.trans h1.2.2
    · exact h6
    · exact h7
  · exact hconn (fc2, conn) h1.1 h1.2.1 h1.2.2 rfl rfl h

theorem abandon_spec {cfg : Config} {rtt now : Nat} {fc : StreamFlowctrl} {conn conn' : ConnFlowctrl}
    (h : abandon cfg rtt now fc conn = some conn') :
    conn'.recvOff = conn.recvOff ∧ conn'.readOff =
      if 0 < sub64 fc.recvOff fc.readOff then add64 conn.readOff (sub64 fc.recvOff fc.readOff)
      else conn.readOff := by
  unfold abandon at h
  extract_lets unreadBytes at h
  show _ ∧ _ = if 0 < unreadBytes then add64 conn.readOff unreadBytes else _
  clear_value unreadBytes
  split at h
  · rename_i hpos
    rw [if_pos hpos]
    exact ConnFlowctrl.read_spec h
  · rename_i hpos
    rw [if_neg hpos, ← Option.some.inj h]
    exact ⟨rfl, rfl⟩

/-- Without a final size, or with one that the frame fits, the flow control counts the frame. -/
theorem updateRwnd_spec (fc : StreamFlowctrl) (conn : ConnFlowctrl) (off : Nat) (fin : Bool) :
    (fc.updateRwnd conn off fin).1.recvOff = (if fc.finFlag then fc.recvOff else max fc.recvOff off) ∧
      (fc.updateRwnd conn off fin).1.readOff = fc.readOff ∧
      (fc.updateRwnd conn off fin).1.finFlag = (fc.finFlag || fin) ∧
      (fc.updateRwnd conn off fin).2 =
        if fc.finFlag ∨ off ≤ fc.recvOff then conn else conn.incrementRecv (sub64 off fc.recvOff) := by
  unfold updateRwnd
  by_cases hf : fc.finFlag = true
  · rw [if_pos hf, if_pos (Or.inl hf)]
    by_cases hc : (fin = true ∧ off ≠ fc.recvOff) ∨ fc.recvOff < off
    · rw [if_pos ⟨hf, hc⟩]
      exact ⟨rfl, rfl, by rw [hf]; rfl, rfl⟩
    · rw [if_neg (fun h => hc h.2)]
      have hle : off ≤ fc.recvOff := Nat.not_lt.mp fun h => hc (Or.inr h)
      dsimp only
      rw [if_pos hle]
      exact ⟨rfl, rfl, rfl, rfl⟩
  · rw [if_neg (fun h => hf h.1), if_neg hf]
    dsimp only
    by_cases hle : off ≤ fc.recvOff
    · rw [if_pos hle, if_pos (Or.inr hle), Nat.max_eq_left hle]
      exact ⟨rfl, rfl, rfl, rfl⟩
    · rw [if_neg hle, if_neg (not_or.mpr ⟨hf, hle⟩), Nat.max_eq_right (by omega)]
      exact ⟨rfl, rfl, rfl, rfl⟩

end StreamFlowctrl

end OpenQuic
