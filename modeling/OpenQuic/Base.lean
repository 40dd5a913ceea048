import OpenQuic.Lib.Word
import OpenQuic.Lib.OrdMap

/-!
# Shared vocabulary

* `Err`       the error codes of `utils/errno.h`;
* `Time`      a time stamp in microseconds, as `uint64_t`;
* `Rbt`       a red-black tree of the `liteco` library with a 64-bit key.  The library is not part
              of the repository; the code inserts only keys that it did not find, finds, removes,
              and walks a tree in key order, so a tree is the ordered map of its nodes;
* `Config`    the fields of `quic_config_t` that the modelled modules read;
* `Space`     the packet number spaces, each with modules of its own, and the packet types.
-/

namespace OpenQuic

/-- `quic_err_conflict` is the same number as `quic_err_bad_format`. -/
inductive Err where
  | success
  | notImplemented
  | badFormat
  | internalError
  | closed
  deriving DecidableEq, Repr

abbrev Time := Nat

abbrev Rbt (ν : Type) := OrdMap Nat ν

structure Config where
  isCli : Bool
  disablePrr : Bool
  initialCwnd : Nat
  maxCwnd : Nat
  minCwnd : Nat
  slowstartLargeReduction : Bool
  streamFlowctrlInitialRwnd : Nat
  streamFlowctrlMaxRwndSize : Nat
  streamFlowctrlInitialSwnd : Nat
  connFlowctrlInitialRwnd : Nat
  connFlowctrlMaxRwndSize : Nat
  connFlowctrlInitialSwnd : Nat
  streamDestoryTimeout : Nat
  disableMigrate : Bool

/-- the configuration of `server.c` -/
def serverCfg : Config where
  isCli := false
  disablePrr := false
  initialCwnd := 1460
  maxCwnd := 10 * 1460
  minCwnd := 1460
  slowstartLargeReduction := true
  streamFlowctrlInitialRwnd := 1460
  streamFlowctrlMaxRwndSize := 5 * 1460
  streamFlowctrlInitialSwnd := 5 * 1460
  connFlowctrlInitialRwnd := 1460
  connFlowctrlMaxRwndSize := 5 * 1460
  connFlowctrlInitialSwnd := 1460
  streamDestoryTimeout := 0
  disableMigrate := false

inductive Space where
  | initial
  | handshake
  | app
  deriving DecidableEq, Repr

/-! the values of `first_byte & 0xf0` that name a packet type -/

def packetInitialType : UInt8 := 0xc0
def packet0rttType : UInt8 := 0xd0
def packetHandshakeType : UInt8 := 0xe0
def packetRetryType : UInt8 := 0xf0
def packetShortType : UInt8 := 0x40

end OpenQuic
