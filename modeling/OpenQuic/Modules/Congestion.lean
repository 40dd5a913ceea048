import OpenQuic.Base

/-!
# Congestion control

The congestion module of `modules/congestion.c` on one path: the window with its slow start
(HyStart), the cubic growth function, proportional rate reduction, the token bucket for pacing and
the round-trip estimate.  All quantities are `uint64_t` unless the name says otherwise.

The cube root of a cubic epoch is a floating-point value in the code; it is a parameter here.
`next_send_time`, which is floating-point as well, is left out.

`log` is not part of the code: it records the operands of every subtraction that involves `cwnd`
and every divisor of the cubic function, so that a statement can be about them.
-/

namespace OpenQuic
open Word

structure CongestionBase where
  cwnd : Nat
  acked : Bool
  largestAckedNum : Nat
  largestSentNum : Nat
  lost : Bool
  atLossLargestSentNum : Nat
  atLossInSlowstart : Bool
  lostPktCount : Nat
  lostBytes : Nat

structure Slowstart where
  threshold : Nat
  endNum : Nat
  lastSentNum : Nat
  started : Bool
  minRtt : Nat
  /-- `uint32_t` -/
  rttSampleCount : Nat
  foundThreshold : Bool
  minExitCwnd : Nat

structure Cubic where
  epoch : Nat
  maxCwnd : Nat
  renoCwnd : Nat
  originCwndPoint : Nat
  originTimePoint : Nat
  /-- `uint32_t` -/
  ackedBytes : Nat

structure Prr where
  ackedCount : Nat
  ackedBytes : Nat
  unackedBytes : Nat
  sentBytes : Nat

structure Tbp where
  budget : Nat
  lastSentTime : Nat

structure Rtt where
  minRtt : Nat
  smoothedRtt : Nat
  rttvar : Nat
  latestSimple : Nat

/-- the operands of the subtractions with `cwnd`, and the divisors of the cubic function -/
structure CongestionLog where
  subs : List (Nat × Nat)
  divisors : List Nat

structure Congestion where
  base : CongestionBase
  slowstart : Slowstart
  cubic : Cubic
  prr : Prr
  tbp : Tbp
  rtt : Rtt
  log : CongestionLog

namespace Congestion

/-! ## round-trip estimate -/

def rttInit : Rtt := ⟨0, 333 * 1000, 333 * 1000 / 4, 0⟩

def rttUpdate (rtt : Rtt) (recvTime sendTime ackDelay : Nat) : Rtt :=
  let latestRtt := sub64 recvTime sendTime
  if rtt.minRtt = 0 then
    { rtt with minRtt := latestRtt, smoothedRtt := latestRtt, rttvar := latestRtt / 2 }
  else
    let minRtt := if latestRtt < rtt.minRtt then latestRtt else rtt.minRtt
    let adjustedRtt := if add64 minRtt ackDelay < latestRtt then sub64 latestRtt ackDelay
      else latestRtt
    let rttvarSimple := if adjustedRtt < latestRtt then sub64 latestRtt adjustedRtt
      else sub64 adjustedRtt latestRtt
    { minRtt := minRtt
      latestSimple := adjustedRtt
      smoothedRtt := add64 (mul64 7 rtt.smoothedRtt) adjustedRtt / 8
      rttvar := add64 (mul64 3 rtt.rttvar) rttvarSimple / 4 }

/-- `quic_congestion_rtt_pto` -/
def pto (c : Congestion) (maxAckDelay : Nat) : Nat :=
  add64 (add64 c.rtt.smoothedRtt (max (shl64 c.rtt.rttvar 2) 1000)) maxAckDelay

def smoothedRtt (c : Congestion) : Nat := c.rtt.smoothedRtt

/-! ## pacing -/

def tbpBandwidth (c : Congestion) : Nat :=
  if c.rtt.smoothedRtt = 0 then 2 ^ 64 - 1
  else mul64 (mul64 (mul64 c.base.cwnd 1000) 1000 / c.rtt.smoothedRtt) 5 / 4

def tbpMaxBurstSize (c : Congestion) : Nat := max (mul64 2000 (tbpBandwidth c) / 1000000) 14600

def tbpBudget (c : Congestion) (sentTime : Nat) : Nat :=
  if c.tbp.lastSentTime = 0 then tbpMaxBurstSize c
  else min (tbpMaxBurstSize c)
    (add64 c.tbp.budget (mul64 (tbpBandwidth c) (sub64 sentTime c.tbp.lastSentTime) / 1000000))

def tbpSentPacket (c : Congestion) (sentTime bytes : Nat) : Congestion :=
  let budget := tbpBudget c sentTime
  { c with tbp := ⟨if budget < bytes then 0 else sub64 budget bytes, sentTime⟩ }

def hasBudget (c : Congestion) (now : Time) : Bool := 14600 ≤ tbpBudget c now

/-! ## recovery -/

def inRecovery (b : CongestionBase) : Bool :=
  b.acked && b.lost && decide (b.largestAckedNum ≤ b.atLossLargestSentNum)

def prrOnLost (unackedBytes : Nat) : Prr := ⟨0, 0, unackedBytes, 0⟩

def prrAllowSend (p : Prr) (cwnd unackedBytes slowstartThreshold : Nat) : Bool :=
  if p.sentBytes = 0 ∨ unackedBytes < 1460 then true
  else if unackedBytes < cwnd then
    decide (p.sentBytes < add64 p.ackedBytes (mul64 p.ackedCount 1460))
  else decide (mul64 p.sentBytes p.unackedBytes < mul64 p.ackedBytes slowstartThreshold)

def allowSend (cfg : Config) (c : Congestion) (unackedBytes : Nat) : Bool :=
  if !cfg.disablePrr && inRecovery c.base then
    prrAllowSend c.prr c.base.cwnd unackedBytes c.slowstart.threshold
  else decide (unackedBytes < c.base.cwnd)

/-! ## cubic -/

/-- the new window, the state, and the divisor that was used -/
def cubicOnAcked (cbrt : Nat → Nat) (m : Cubic) (ackedBytes cwnd delayMin eventTime : Nat) :
    Nat × Cubic × Nat :=
  let m :=
    if m.epoch = 0 then
      if m.maxCwnd ≤ cwnd then
        { m with epoch := eventTime, ackedBytes := u32 ackedBytes, renoCwnd := cwnd,
                 originTimePoint := 0, originCwndPoint := cwnd }
      else
        { m with epoch := eventTime, ackedBytes := u32 ackedBytes, renoCwnd := cwnd,
                 originTimePoint := u64 (cbrt (m.maxCwnd - cwnd)), originCwndPoint := m.maxCwnd }
    else { m with ackedBytes := u32 (m.ackedBytes + ackedBytes) }
  let elapsedTime := shl64 (sub64 (add64 eventTime delayMin) m.epoch) 10 / (1000 * 1000)
  let offset := if m.originTimePoint < elapsedTime then sub64 elapsedTime m.originTimePoint
    else sub64 m.originTimePoint elapsedTime
  let deltaCwnd := mul64 (mul64 (mul64 (mul64 410 offset) offset) offset) 1460 / 2 ^ 40
  let ret := if m.originTimePoint < elapsedTime then add64 m.originCwndPoint deltaCwnd
    else sub64 m.originCwndPoint deltaCwnd
  let ret := min ret (add64 cwnd (m.ackedBytes / 2))
  let divisor := mul64 17 m.renoCwnd
  let renoCwnd := add64 m.renoCwnd (mul32 (mul32 m.ackedBytes 1460) 9 / divisor)
  (max ret renoCwnd, { m with renoCwnd := renoCwnd, ackedBytes := 0 }, divisor)

/-- the subtraction of the window when an epoch starts -/
def cubicSubs (m : Cubic) (cwnd : Nat) : List (Nat × Nat) :=
  if m.epoch = 0 ∧ cwnd < m.maxCwnd then [(m.maxCwnd, cwnd)] else []

def cubicOnLost (m : Cubic) (cwnd : Nat) : Nat × Cubic :=
  (mul64 cwnd 7 / 10,
    { m with
      maxCwnd := if add64 cwnd 1460 < m.maxCwnd then mul64 cwnd 17 / 20 else cwnd
      epoch := 0 })

/-! ## the window -/

def cwndLimited (c : Congestion) (unackedBytes : Nat) : Bool :=
  if c.base.cwnd ≤ unackedBytes then true
  else (decide (c.base.cwnd < c.slowstart.threshold) && decide (c.base.cwnd / 2 < unackedBytes))
    || decide (sub64 c.base.cwnd unackedBytes ≤ 3 * 1460)

/-- the subtraction in `cwndLimited`, when it is reached -/
def cwndLimitedSubs (c : Congestion) (unackedBytes : Nat) : List (Nat × Nat) :=
  if c.base.cwnd ≤ unackedBytes then []
  else if c.base.cwnd < c.slowstart.threshold ∧ c.base.cwnd / 2 < unackedBytes then []
  else [(c.base.cwnd, unackedBytes)]

def increaseCwnd (cfg : Config) (cbrt : Nat → Nat) (c : Congestion)
    (ackedBytes unackedBytes eventTime : Nat) : Congestion :=
  let limited := cwndLimited c unackedBytes
  let c := { c with log := { c.log with subs := cwndLimitedSubs c unackedBytes ++ c.log.subs } }
  if !limited then { c with cubic := { c.cubic with epoch := 0 } }
  else if cfg.maxCwnd ≤ c.base.cwnd then c
  else if c.base.cwnd < c.slowstart.threshold then
    { c with base := { c.base with cwnd := add64 c.base.cwnd 1460 } }
  else
    let (cwnd, cubic, divisor) :=
      cubicOnAcked cbrt c.cubic ackedBytes c.base.cwnd c.rtt.minRtt eventTime
    { c with
      base := { c.base with cwnd := if cfg.maxCwnd < cwnd then cfg.maxCwnd else cwnd }
      cubic := cubic
      log := ⟨cubicSubs c.cubic c.base.cwnd ++ c.log.subs, divisor :: c.log.divisors⟩ }

def onSent (c : Congestion) (sentTime num sentBytes : Nat) (includedUnacked : Bool) : Congestion :=
  let c := tbpSentPacket c sentTime sentBytes
  if !includedUnacked then c
  else
    let prr := if inRecovery c.base then
        { c.prr with sentBytes := add64 c.prr.sentBytes sentBytes } else c.prr
    { c with
      prr := prr
      base := { c.base with largestSentNum := num }
      slowstart := { c.slowstart with lastSentNum := num } }

/-- the base after an acknowledgement of `num` -/
def ackedNum (b : CongestionBase) (num : Nat) : CongestionBase :=
  if !b.acked then { b with acked := true, largestAckedNum := num }
  else if b.largestAckedNum < num then { b with largestAckedNum := num }
  else b

def onAcked (cfg : Config) (cbrt : Nat → Nat) (c : Congestion)
    (num ackedBytes unackedBytes eventTime : Nat) : Congestion :=
  let c := { c with base := ackedNum c.base num }
  if inRecovery c.base then
    if !cfg.disablePrr then
      { c with prr := { c.prr with
          ackedBytes := add64 c.prr.ackedBytes ackedBytes
          ackedCount := add64 c.prr.ackedCount 1 } }
    else c
  else
    let c := increaseCwnd cfg cbrt c ackedBytes unackedBytes eventTime
    if c.base.cwnd < c.slowstart.threshold ∧ c.slowstart.endNum < num then
      { c with slowstart := { c.slowstart with started := false } }
    else c

/-- a loss of a packet that was in flight at the last reduction -/
def onLostAgain (cfg : Config) (c : Congestion) (lostBytes : Nat) : Congestion :=
  if c.base.atLossInSlowstart then
    let c := { c with base := { c.base with
      lostPktCount := add64 c.base.lostPktCount 1
      lostBytes := add64 c.base.lostBytes lostBytes } }
    if cfg.slowstartLargeReduction then
      let cwnd := sub64 c.base.cwnd lostBytes
      let cwnd := if cwnd < c.slowstart.minExitCwnd then c.slowstart.minExitCwnd else cwnd
      { c with
        base := { c.base with cwnd := cwnd }
        slowstart := { c.slowstart with threshold := cwnd }
        log := { c.log with subs := (c.base.cwnd, lostBytes) :: c.log.subs } }
    else c
  else c

/-- the reduction of the window at a loss of a packet sent after the last one -/
def reduceCwnd (cfg : Config) (c : Congestion) : Congestion :=
  if cfg.slowstartLargeReduction && c.base.atLossInSlowstart then
    { c with
      slowstart := { c.slowstart with
        minExitCwnd := if mul64 2 cfg.initialCwnd ≤ c.base.cwnd then c.base.cwnd / 2
          else c.slowstart.minExitCwnd }
      base := { c.base with cwnd := sub64 c.base.cwnd 1460 }
      log := { c.log with subs := (c.base.cwnd, 1460) :: c.log.subs } }
  else
    let (cwnd, cubic) := cubicOnLost c.cubic c.base.cwnd
    { c with base := { c.base with cwnd := cwnd }, cubic := cubic }

def onLostFirst (cfg : Config) (c : Congestion) (unackedBytes : Nat) : Congestion :=
  let inSlowstart := decide (c.base.cwnd < c.slowstart.threshold)
  let c := { c with base := { c.base with
    atLossInSlowstart := inSlowstart
    lostPktCount := if inSlowstart then add64 c.base.lostPktCount 1 else c.base.lostPktCount } }
  let c := if !cfg.disablePrr then { c with prr := prrOnLost unackedBytes } else c
  let c := reduceCwnd cfg c
  { c with
    slowstart := { c.slowstart with threshold := c.base.cwnd }
    base := { c.base with
      cwnd := if c.base.cwnd < cfg.minCwnd then cfg.minCwnd else c.base.cwnd
      lost := true
      atLossLargestSentNum := c.base.largestSentNum } }

def onLost (cfg : Config) (c : Congestion) (num lostBytes unackedBytes : Nat) : Congestion :=
  if c.base.lost ∧ num ≤ c.base.atLossLargestSentNum then onLostAgain cfg c lostBytes
  else onLostFirst cfg c unackedBytes

/-! ## HyStart -/

def slowstartSample (rtt : Rtt) (s : Slowstart) : Slowstart :=
  let count := add32 s.rttSampleCount 1
  let minRtt := if count ≤ 8 ∧ (s.minRtt = 0 ∨ rtt.latestSimple < s.minRtt) then rtt.latestSimple
    else s.minRtt
  let incThrehold := rtt.minRtt / 8
  let incThrehold := if incThrehold < 16000 then incThrehold else 1600
  let incThrehold := if incThrehold < 4000 then 4000 else incThrehold
  { s with
    rttSampleCount := count
    minRtt := minRtt
    foundThreshold := s.foundThreshold ||
      (count == 8 && decide (add64 rtt.minRtt incThrehold < minRtt)) }

def update (c : Congestion) (recvTime sentTime delay : Nat) : Congestion :=
  let c := { c with rtt := rttUpdate c.rtt recvTime sentTime delay }
  if c.slowstart.threshold ≤ c.base.cwnd then c
  else
    let s := if !c.slowstart.started then
        { c.slowstart with started := true, endNum := c.slowstart.lastSentNum, minRtt := 0,
                           rttSampleCount := 0 }
      else c.slowstart
    if s.foundThreshold then { c with slowstart := { s with threshold := c.base.cwnd } }
    else
      let s := slowstartSample c.rtt s
      if 16 ≤ c.base.cwnd / 1460 ∧ s.foundThreshold then
        { c with slowstart := { s with threshold := c.base.cwnd } }
      else { c with slowstart := s }

/-! ## a new path -/

/-- The state of a new path.  The budget is not looked at before the path has sent a packet, by
`next_send_time` apart; `Migrate.create` has the one that `quic_congestion_tbp_init` sets. -/
def init (cfg : Config) : Congestion :=
  { base := ⟨cfg.initialCwnd, false, 0, 0, false, 0, false, 0, 0⟩
    slowstart := ⟨cfg.maxCwnd, 0, 0, false, 0, 0, false, 0⟩
    cubic := ⟨0, 0, 0, 0, 0, 0⟩
    prr := ⟨0, 0, 0, 0⟩
    tbp := ⟨0, 0⟩
    rtt := rttInit
    log := ⟨[], []⟩ }

end Congestion

end OpenQuic
