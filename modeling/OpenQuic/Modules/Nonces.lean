import OpenQuic.Lib.Runs
import OpenQuic.Modules.PackFits
import OpenQuic.Modules.Sealer

/-!
# Nonces

The keys of the side that writes (`quic_sealer_set_key_iv`, `quic_sealer_set_write_secret` and the
Initial keys of `quic_sealer_module_start`), and what the packets of a session ask of the AEAD.

* `Hkdf`             HKDF is not part of the repository: its two functions are parameters;
* `WriteKey`         `w_key` and `w_iv`, both taken from a secret by `setKeyIv`;
* `AeadCall`         one call of `EVP_AEAD_CTX_seal`; the nonce is the IV as it stands;
* `Event`, `step`    the six packet builders and the installation of a secret.  A close packet takes
                     `numgen->next` and leaves it; it is the last packet of the session;
* `distinct_iff`     the nonces under a key are distinct exactly in the runs that seal each packet
                     under a key that has sealed none before.
-/

namespace OpenQuic
open Word Window

/-! ## keys -/

inductive Digest where
  | sha256
  | sha384
  deriving DecidableEq, Repr

/-- `HKDF_extract` and `HKDF_expand`; the lengths that are asked for are ones that never fail -/
structure Hkdf where
  extract : (prf : Digest) → (secret salt : List UInt8) → List UInt8
  expand : (prf : Digest) → (secret info : List UInt8) → (outlen : Nat) → List UInt8

structure WriteKey where
  key : List UInt8
  iv : List UInt8
  deriving DecidableEq, Repr

/-- the cipher suites of TLS 1.3, `TLS1_CK_...` -/
inductive Suite where
  | aes128GcmSha256
  | aes256GcmSha384
  | chacha20Poly1305Sha256
  deriving DecidableEq, Repr

def Suite.keyLen : Suite → Nat
  | .aes128GcmSha256 => 16
  | .aes256GcmSha384 => 32
  | .chacha20Poly1305Sha256 => 32

def Suite.prf : Suite → Digest
  | .aes128GcmSha256 => .sha256
  | .aes256GcmSha384 => .sha384
  | .chacha20Poly1305Sha256 => .sha256

/-- `"tls13 "` -/
def tls13 : List UInt8 := [0x74, 0x6c, 0x73, 0x31, 0x33, 0x20]

/-- `"quic key"` -/
def keyLabel : List UInt8 := [0x71, 0x75, 0x69, 0x63, 0x20, 0x6b, 0x65, 0x79]

/-- `"quic iv"` -/
def ivLabel : List UInt8 := [0x71, 0x75, 0x69, 0x63, 0x20, 0x69, 0x76]

/-- `quic_sealer_hkdf_expand_label` -/
def hkdfExpandLabel (h : Hkdf) (prf : Digest) (secret label : List UInt8) (outlen : Nat) :
    List UInt8 :=
  h.expand prf secret
    (UInt8.ofNat (outlen / 256) :: UInt8.ofNat outlen :: UInt8.ofNat (6 + label.length + 1) ::
      (tls13 ++ label ++ [0])) outlen

/-- `quic_sealer_set_key_iv`: the label of the IV is as many bytes of `key_label` as `iv_label` has -/
def setKeyIv (h : Hkdf) (prf : Digest) (secret : List UInt8) (keyLen ivLen : Nat) : WriteKey where
  key := hkdfExpandLabel h prf secret keyLabel keyLen
  iv := hkdfExpandLabel h prf secret (keyLabel.take ivLabel.length) ivLen

def initialSalt : List UInt8 :=
  [0x38, 0x76, 0x2c, 0xf7, 0xf5, 0x59, 0x34, 0xb3, 0x4d, 0x17, 0x9a, 0xe6, 0xa4, 0xc8, 0x0c, 0xad,
    0xcc, 0xbb, 0x7f, 0x0a]

/-- `"\x00\x20\x0ftls13 client in\x00"` -/
def cliInfo : List UInt8 :=
  [0x00, 0x20, 0x0f] ++ tls13 ++ [0x63, 0x6c, 0x69, 0x65, 0x6e, 0x74, 0x20, 0x69, 0x6e, 0x00]

/-- `"\x00\x20\x0ftls13 server in\x00"` -/
def serInfo : List UInt8 :=
  [0x00, 0x20, 0x0f] ++ tls13 ++ [0x73, 0x65, 0x72, 0x76, 0x65, 0x72, 0x20, 0x69, 0x6e, 0x00]

/-- `quic_sealer_initial_compute_security`: the secrets of the client and of the server.  The caller
does not look at what it returns, and goes on with two empty ones. -/
def initialComputeSecurity (h : Hkdf) (mem : Bool) (connid : List UInt8) :
    List UInt8 × List UInt8 :=
  if !mem then ([], [])
  else
    let secret := h.extract .sha256 connid initialSalt
    (h.expand .sha256 secret cliInfo 32, h.expand .sha256 secret serInfo 32)

/-- the Initial key of `quic_sealer_module_start` -/
def initialWriteKey (h : Hkdf) (secMem : Bool) (isCli : Bool) (dst src : List UInt8) : WriteKey :=
  let sec := initialComputeSecurity h secMem (if isCli then dst else src)
  setKeyIv h .sha256 (if isCli then sec.1 else sec.2) 32 12

/-! ## what the AEAD is asked -/

/-- one call of `EVP_AEAD_CTX_seal` -/
structure AeadCall where
  key : List UInt8
  nonce : List UInt8
  plain : List UInt8
  ad : List UInt8
  deriving DecidableEq, Repr

/-- `quic_sealer_seal` up to its call of the AEAD, which it does not reach without a plaintext.
A context without a key has no algorithm to call. -/
def aeadCall (mem : Bool) (key : Option WriteKey) (frames : List Frame) (hdr : List UInt8)
    (srcLen : Nat) : Option (Option AeadCall) := do
  let _ ← headerPacketNumberOff hdr srcLen
  let _ ← hdr[0]?
  if !mem then return none
  let plain ← plaintext frames
  let k ← key
  return some ⟨k.key, k.iv, plain, hdr⟩

/-! ## the packets -/

namespace Nonces
open Pack

/-- a packet that `quic_sealer_seal` is called for, and `numgen->next` then -/
structure Ready where
  hdr : List UInt8
  frames : List Frame
  /-- `quic_buf_size(&session->dst)` -/
  srcLen : Nat
  next : Nat
  deriving DecidableEq

/-- the frame of `quic_sender_pack_connection_close` -/
def closeFrame (quicClosed : Bool) (type errcode : Nat) (reason : List UInt8) : Frame :=
  Frame.init (if quicClosed then 0x1c else 0x1d) (.connectionClose errcode type reason)

/-- the header of a packet of the space, with the length that a long one has -/
def header (dst src : List UInt8) (num payloadLen : Nat) : Space → List UInt8
  | .initial => generateInitialHeader dst src num payloadLen
  | .handshake => generateHandshakeHeader dst src num payloadLen
  | .app => generateShortHeader dst num

/-- `quic_sender_pack_initial_connection_close` and its two siblings; `mem` is the allocation of the
packet -/
def packConnectionClose (mem : Bool) (mtu next : Nat) (dst src : List UInt8) (frame : Frame)
    (space : Space) : Option Ready :=
  if mtu = 0 then none
  else if !mem then none
  else some ⟨header dst src next (frameSize frame) space, [frame], dst.length, next⟩

/-- What a session seals packets for, or changes its keys with.  The modules that a packet is built
from are as they are then; `mem` is the allocation of the packet, `sealMem` that of the plaintext. -/
inductive Event where
  | pack (space : Space) (mem sealMem : Bool) (env : Source → Nat → Env) (fuel : Nat)
      (probe : Bool) (l : Level) (e : Env)
  | close (space : Space) (frameMem mem sealMem : Bool) (mtu : Nat) (dst src : List UInt8)
      (quicClosed : Bool) (type errcode : Nat) (reason : List UInt8)
  | setWriteSecret (level : Option Space) (secMem mem : Bool) (suite : Suite) (secret : List UInt8)

def Event.space : Event → Option Space
  | .pack space .. => some space
  | .close space .. => some space
  | .setWriteSecret .. => none

def Event.sealMem : Event → Bool
  | .pack _ _ sealMem .. => sealMem
  | .close _ _ _ sealMem .. => sealMem
  | .setWriteSecret .. => false

/-- the packet that a builder hands to `quic_sealer_seal`, if it comes to that -/
def Event.ready (next : Space → Nat) : Event → Option (Option Ready)
  | .pack space mem _ env fuel probe l e =>
    match packPacket mem env fuel probe { l with num := next space } e space with
    | none => some none
    | some x =>
      if x.ended = .done then some (some ⟨x.hdr, x.packing.frames, l.dst.length, x.next⟩) else none
  | .close space frameMem mem _ mtu dst src quicClosed type errcode reason =>
    if !frameMem then some none
    else some (packConnectionClose mem mtu (next space) dst src
      (closeFrame quicClosed type errcode reason) space)
  | .setWriteSecret .. => some none

/-! ## runs -/

/-- `used` has the write keys that the AEAD was called with, `calls` the calls, both newest first -/
structure State where
  next : Space → Nat
  key : Space → Option WriteKey
  closed : Bool
  used : List WriteKey
  calls : List AeadCall

/-- A session behind `quic_sealer_module_start`, which gives up when one of the four buffers for keys
is not there. -/
def start (h : Hkdf) (secMem mem : Bool) (isCli : Bool) (dst src : List UInt8) : State where
  next := fun _ => 0
  key := fun space =>
    if space = .initial ∧ mem then some (initialWriteKey h secMem isCli dst src) else none
  closed := false
  used := []
  calls := []

/-- `quic_sealer_set_write_secret`: a level without a sealer, or a buffer that is not there, leaves
the key as it is -/
def State.setWriteSecret (h : Hkdf) (s : State) (level : Option Space) (secMem mem : Bool)
    (suite : Suite) (secret : List UInt8) : Option State :=
  match level with
  | none => some s
  | some space =>
    if !secMem then none
    else if !mem then some s
    else some { s with
      key := Function.update s.key space (some (setKeyIv h suite.prf secret suite.keyLen 12)) }

/-- what the AEAD is asked for a packet of the space -/
def State.asked (s : State) (space : Space) (sealMem : Bool) (p : Ready) :
    Option (Option AeadCall) :=
  aeadCall sealMem (s.key space) p.frames p.hdr p.srcLen

/-- A packet is built and sealed.  What `quic_sealer_seal` does behind the call of the AEAD changes
neither a key nor a number. -/
def State.build (s : State) (e : Event) (space : Space) : Option State :=
  match e.ready s.next with
  | none => none
  | some none => some s
  | some (some p) =>
    match s.asked space e.sealMem p with
    | none => none
    | some c => some { s with
        next := Function.update s.next space p.next
        used := (c.bind fun _ => s.key space).toList ++ s.used
        calls := c.toList ++ s.calls }

/-- one event; the session is over with its close packet -/
def step (h : Hkdf) (s : State) (e : Event) : Option State :=
  if s.closed then none
  else
    match e with
    | .setWriteSecret level secMem mem suite secret =>
      s.setWriteSecret h level secMem mem suite secret
    | .pack space .. => s.build e space
    | .close space .. => (s.build e space).map fun s => { s with closed := true }

/-! ## distinct nonces -/

/-- no two calls under one key have one nonce -/
def Distinct (calls : List AeadCall) : Prop :=
  calls.Pairwise fun a b => a.key = b.key → a.nonce ≠ b.nonce

/-- the event builds a packet that the AEAD is called for -/
def State.Asks (s : State) (e : Event) (space : Space) : Prop :=
  ∃ p c, e.ready s.next = some (some p) ∧ s.asked space e.sealMem p = some (some c)

/-- A packet that is sealed is sealed under a key that has sealed none before. -/
def State.Unused (s : State) (e : Event) : Prop :=
  s.closed = false → ∀ space, e.space = some space → s.Asks e space →
    ∀ k, s.key space = some k → k ∉ s.used

def writeKey (c : AeadCall) : WriteKey := ⟨c.key, c.nonce⟩

theorem distinct_iff_nodup (calls : List AeadCall) :
    Distinct calls ↔ (calls.map writeKey).Nodup := by
  have hne : ∀ a b : AeadCall, (a.key = b.key → a.nonce ≠ b.nonce) ↔ writeKey a ≠ writeKey b := by
    intro a b
    unfold writeKey
    rw [Ne, Ne, WriteKey.mk.injEq, not_and]
  unfold Distinct List.Nodup
  rw [List.pairwise_map]
  exact List.Pairwise.iff fun {a b} => hne a b

/-- the nonce is the IV of the key -/
theorem aeadCall_key {mem : Bool} {key : Option WriteKey} {frames : List Frame} {hdr : List UInt8}
    {srcLen : Nat} {c : AeadCall} (h : aeadCall mem key frames hdr srcLen = some (some c)) :
    key = some (writeKey c) := by
  unfold aeadCall at h
  obtain ⟨_, _, h⟩ := Option.bind_eq_some_iff.mp h
  obtain ⟨_, _, h⟩ := Option.bind_eq_some_iff.mp h
  cases mem with
  | false => cases h
  | true =>
    obtain ⟨_, _, h⟩ := Option.bind_eq_some_iff.mp h
    obtain ⟨k, hk, h⟩ := Option.bind_eq_some_iff.mp h
    cases h
    exact hk

section
variable {h : Hkdf} {s s' : State} {e : Event} {space : Space}

theorem build_eq {p : Ready} {c : AeadCall} (hp : e.ready s.next = some (some p))
    (hc : s.asked space e.sealMem p = some (some c)) : s.build e space = some { s with
      next := Function.update s.next space p.next
      used := writeKey c :: s.used
      calls := c :: s.calls } := by
  unfold State.build
  rw [hp]
  show (match s.asked space e.sealMem p with | none => none | some c => _) = _
  rw [hc]
  show some { s with
    next := Function.update s.next space p.next
    used := (s.key space).toList ++ s.used
    calls := c :: s.calls } = _
  rw [aeadCall_key hc]
  rfl

/-- a packet that reaches the AEAD adds one call, under the key and the IV of its level -/
theorem build_asks (ha : s.Asks e space) : ∃ s' c, s.build e space = some s' ∧
    s.key space = some (writeKey c) ∧ s'.used = writeKey c :: s.used ∧ s'.calls = c :: s.calls := by
  obtain ⟨p, c, hp, hc⟩ := ha
  exact ⟨_, c, build_eq hp hc, aeadCall_key hc, rfl, rfl⟩

/-- and any other event leaves the record as it is -/
theorem build_silent (hn : ¬ s.Asks e space) (hb : s.build e space = some s') :
    s'.used = s.used ∧ s'.calls = s.calls := by
  unfold State.build at hb
  cases hp : e.ready s.next with
  | none =>
    rw [hp] at hb
    cases hb
  | some r =>
    rw [hp] at hb
    cases r with
    | none =>
      cases hb
      exact ⟨rfl, rfl⟩
    | some p =>
      replace hb : (match s.asked space e.sealMem p with | none => none | some c => _) = some s' := hb
      cases hc : s.asked space e.sealMem p with
      | none =>
        rw [hc] at hb
        cases hb
      | some c =>
        rw [hc] at hb
        cases c with
        | none =>
          cases hb
          exact ⟨rfl, rfl⟩
        | some c => exact absurd ⟨p, c, hp, hc⟩ hn

theorem step_asks (hopen : s.closed = false) (hsp : e.space = some space) (ha : s.Asks e space) :
    ∃ s' c, step h s e = some s' ∧ s.key space = some (writeKey c) ∧
      s'.used = writeKey c :: s.used ∧ s'.calls = c :: s.calls := by
  obtain ⟨s1, c, hb, hkey, hused, hcalls⟩ := build_asks ha
  unfold step
  rw [hopen, if_neg Bool.false_ne_true]
  cases e with
  | setWriteSecret => cases hsp
  | pack =>
    cases hsp
    exact ⟨s1, c, hb, hkey, hused, hcalls⟩
  | close =>
    cases hsp
    exact ⟨{ s1 with closed := true }, c, Option.map_eq_some_iff.mpr ⟨s1, hb, rfl⟩, hkey, hused,
      hcalls⟩

theorem step_silent (hn : ∀ space, e.space = some space → ¬ s.Asks e space)
    (hs : step h s e = some s') : s'.used = s.used ∧ s'.calls = s.calls := by
  unfold step at hs
  split at hs
  · cases hs
  · cases e with
    | pack => exact build_silent (hn _ rfl) hs
    | close =>
      obtain ⟨s1, hb, rfl⟩ := Option.map_eq_some_iff.mp hs
      have hsilent : s1.used = s.used ∧ s1.calls = s.calls := build_silent (hn _ rfl) hb
      exact hsilent
    | setWriteSecret level secMem mem suite secret =>
      replace hs : s.setWriteSecret h level secMem mem suite secret = some s' := hs
      unfold State.setWriteSecret at hs
      split at hs
      · cases hs
        exact ⟨rfl, rfl⟩
      · split at hs
        · cases hs
        · split at hs
          · cases hs
            exact ⟨rfl, rfl⟩
          · cases hs
            exact ⟨rfl, rfl⟩

/-- the keys that are recorded are those of the calls, and no call repeats one -/
structure Recorded (s : State) : Prop where
  used : s.used = s.calls.map writeKey
  nodup : s.used.Nodup

theorem Recorded.distinct (hr : Recorded s) : Distinct s.calls := by
  rw [distinct_iff_nodup, ← hr.used]
  exact hr.nodup

theorem step_recorded (hr : Recorded s) (hu : s.Unused e) (hs : step h s e = some s') :
    Recorded s' := by
  have hopen : s.closed = false := by
    cases hcl : s.closed with
    | false => rfl
    | true =>
      unfold step at hs
      rw [hcl] at hs
      cases hs
  by_cases hask : ∃ space, e.space = some space ∧ s.Asks e space
  · obtain ⟨space, hsp, ha⟩ := hask
    obtain ⟨s1, c, hs1, hkey, hused, hcalls⟩ := step_asks (h := h) hopen hsp ha
    cases hs.symm.trans hs1
    refine ⟨?_, ?_⟩
    · rw [hused, hcalls, hr.used, List.map_cons]
    · rw [hused]
      exact List.nodup_cons.mpr ⟨hu hopen space hsp ha _ hkey, hr.nodup⟩
  · obtain ⟨hused, hcalls⟩ := step_silent (fun space hsp ha => hask ⟨space, hsp, ha⟩) hs
    refine ⟨?_, ?_⟩
    · rw [hused, hcalls, hr.used]
    · rw [hused]
      exact hr.nodup

/-- a key that is used again gives its nonce to a second call -/
theorem step_repeats (hr : Recorded s) (hu : ¬ s.Unused e) :
    ∃ s', step h s e = some s' ∧ ¬ Distinct s'.calls := by
  unfold State.Unused at hu
  push Not at hu
  obtain ⟨hopen, space, hsp, ha, k, hk, hmem⟩ := hu
  obtain ⟨s1, c, hs1, hkey, _, hcalls⟩ := step_asks (h := h) hopen hsp ha
  refine ⟨s1, hs1, fun hd => ?_⟩
  rw [distinct_iff_nodup, hcalls, List.map_cons, ← hr.used] at hd
  cases hk.symm.trans hkey
  exact (List.nodup_cons.mp hd).1 hmem

end

theorem start_recorded (h : Hkdf) (secMem mem isCli : Bool) (dst src : List UInt8) :
    Recorded (start h secMem mem isCli dst src) := ⟨rfl, List.nodup_nil⟩

/-- **The nonces of a session.**  They are distinct under every key, all along a run, if and only if
every packet of the run that is sealed is sealed under a key that has sealed none before. -/
theorem distinct_iff (h : Hkdf) (secMem mem isCli : Bool) (dst src : List UInt8)
    (es : List Event) :
    (∀ past, past <+: es → ∀ s, Runs.run (step h) (start h secMem mem isCli dst src) past = some s →
      Distinct s.calls) ↔
    Runs.Along (step h) State.Unused (start h secMem mem isCli dst src) es := by
  refine Runs.holds_iff_along (I := Recorded) (fun s hr => hr.distinct)
    (fun s e s' hr (_ : True) hu hs => step_recorded hr hu hs) (fun s e hr _ hu => step_repeats hr hu) es
    (start_recorded h secMem mem isCli dst src) ?_
  exact (Runs.Along.of_mem (step h) (P := fun _ => True) fun _ _ => trivial)

/-! ## a repeated nonce -/

theorem aeadCall_eq {frames : List Frame} {hdr plain : List UInt8} {srcLen off : Nat}
    {first : UInt8} (k : WriteKey) (hoff : headerPacketNumberOff hdr srcLen = some off)
    (hfirst : hdr[0]? = some first) (hpl : plaintext frames = some plain) :
    aeadCall true (some k) frames hdr srcLen = some (some ⟨k.key, k.iv, plain, hdr⟩) := by
  unfold aeadCall
  rw [hoff, hfirst, hpl]
  rfl

/-- an application level with one frame to send -/
def oneFrame (frame : Frame) : Level :=
  ⟨1460, 0, [7], [], 16, .init, .init, .init,
    { Streams.init serverCfg with framer := { (Streams.init serverCfg).framer with
      ctrls := [frame] } }⟩

def packFrame (frame : Frame) : Event :=
  .pack .app true true (fun _ _ => allOk) 10 false (oneFrame frame) allOk

theorem step_packFrame {h : Hkdf} {s : State} {frame : Frame} (hopen : s.closed = false) :
    step h s (packFrame frame) = s.build (packFrame frame) .app := by
  unfold step
  rw [hopen]
  rfl

/-- A secret for the application level, and two packets of it: HANDSHAKE_DONE with the number 0, and
MAX_STREAM_DATA with the number 1.  Whatever HKDF makes of the secret, both have one nonce. -/
theorem not_distinct : ¬ ∃ h : Hkdf, ∀ (secMem mem isCli : Bool) (dst src : List UInt8)
    (es : List Event) (s : State),
    Runs.run (step h) (start h secMem mem isCli dst src) es = some s → Distinct s.calls := by
  intro hex
  obtain ⟨h, hall⟩ := hex
  let k := setKeyIv h .sha256 [1] 16 12
  let e0 := packFrame (Frame.init 0x1e .handshakeDone)
  let e1 := packFrame (Frame.init 0x11 (.maxStreamData 0 10))
  -- the two packets, and what the AEAD is asked for them
  have hr0 : e0.ready (fun _ => 0) =
      some (some ⟨[0x40, 7, 0], [Frame.init 0x1e .handshakeDone], 1, 1⟩) := by decide +kernel
  have hr1 : e1.ready (Function.update (fun _ => 0) .app 1) =
      some (some ⟨[0x40, 7, 1], [Frame.init 0x11 (.maxStreamData 0 10)], 1, 2⟩) := by
    decide +kernel
  have hc0 : aeadCall true (some k) [Frame.init 0x1e .handshakeDone] [0x40, 7, 0] 1 =
      some (some ⟨k.key, k.iv, [0x1e], [0x40, 7, 0]⟩) :=
    aeadCall_eq k (show headerPacketNumberOff [0x40, 7, 0] 1 = some 2 by decide) rfl
      (by decide +kernel)
  have hc1 : aeadCall true (some k) [Frame.init 0x11 (.maxStreamData 0 10)] [0x40, 7, 1] 1 =
      some (some ⟨k.key, k.iv, [0x11, 0, 10], [0x40, 7, 1]⟩) :=
    aeadCall_eq k (show headerPacketNumberOff [0x40, 7, 1] 1 = some 2 by decide) rfl
      (by decide +kernel)
  let s0 := start h true true false [7] []
  let s1 : State := { s0 with key := Function.update s0.key .app (some k) }
  have hkey : s1.key .app = some k := by
    show Function.update s0.key .app (some k) .app = some k
    rw [Function.update_self]
  let c0 : AeadCall := ⟨k.key, k.iv, [0x1e], [0x40, 7, 0]⟩
  let c1 : AeadCall := ⟨k.key, k.iv, [0x11, 0, 10], [0x40, 7, 1]⟩
  let s2 : State := { s1 with
    next := Function.update s1.next .app 1
    used := writeKey c0 :: s1.used
    calls := c0 :: s1.calls }
  let s3 : State := { s2 with
    next := Function.update s2.next .app 2
    used := writeKey c1 :: s2.used
    calls := c1 :: s2.calls }
  have hb0 : s1.build e0 .app = some s2 := by
    refine build_eq (s := s1) (e := e0) (c := c0) hr0 ?_
    unfold State.asked
    rw [hkey]
    exact hc0
  have hb1 : s2.build e1 .app = some s3 := by
    refine build_eq (s := s2) (e := e1) (c := c1) hr1 ?_
    unfold State.asked
    show aeadCall _ (s1.key .app) _ _ _ = _
    rw [hkey]
    exact hc1
  have hinstall : step h s0 (.setWriteSecret (some .app) true true .aes128GcmSha256 [1]) =
      some s1 := rfl
  have hrun : Runs.run (step h) s0 [.setWriteSecret (some .app) true true .aes128GcmSha256 [1],
      e0, e1] = some s3 := by
    rw [Runs.run_cons, hinstall, Option.bind_some, Runs.run_cons, step_packFrame rfl, hb0,
      Option.bind_some, Runs.run_cons, step_packFrame rfl, hb1]
    rfl
  have hd := hall _ _ _ _ _ _ s3 hrun
  exact List.rel_of_pairwise_cons hd List.mem_cons_self rfl rfl

end Nonces

end OpenQuic
