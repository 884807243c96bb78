import OpenNode.Lib.BigEndian
import OpenNode.Lib.ReplayWindow

namespace OpenNode

open BigEndian

abbrev Bytes := List UInt8

/-- `MAX_AGENT_MESSAGE_BYTES`, here `MAX_MESSAGE_BYTES`. -/
def maxMessageBytes : Nat := 4 * 1024 * 1024

def maxSequence : Nat := (1 <<< 64) - 1

/-- An `AESGCM` cipher under one key; `decrypt` gives `none` where the library
raises `InvalidTag`. -/
structure Cipher where
  encrypt : (nonce plaintext : Bytes) → Bytes
  decrypt : (nonce ciphertext : Bytes) → Option Bytes

inductive ChannelError where
  | sendLimit | invalidEnvelope | replayed | invalidTag
deriving DecidableEq, Repr

def ChannelError.message : ChannelError → String
  | .sendLimit => "Secure channel send limit reached"
  | .invalidEnvelope => "Invalid secure channel envelope"
  | .replayed => "Replayed or expired secure channel sequence"
  | .invalidTag => "Invalid secure channel authentication tag"

structure ChannelSession where
  sendCipher : Cipher
  recvCipher : Cipher
  sendNonce : Bytes
  recvNonce : Bytes
  sendSequence : Nat := 0
  recvMax : Nat := 0
  recvBitmap : Nat := 0

namespace ChannelSession

/-- `__init__`: the session of one side over the derived key material. -/
def init (aesgcm : Bytes → Cipher) (hkdf : (salt shared : Bytes) → Bytes)
    (shared agentPublic masterPublic : Bytes) (isMaster : Bool) : ChannelSession :=
  let material := hkdf (agentPublic ++ masterPublic) shared
  let first := material.take 32
  let second := (material.drop 32).take 32
  let firstNonce := (material.drop 64).take 12
  let secondNonce := (material.drop 76).take 12
  { sendCipher := aesgcm (if isMaster then first else second)
    recvCipher := aesgcm (if isMaster then second else first)
    sendNonce := if isMaster then firstNonce else secondNonce
    recvNonce := if isMaster then secondNonce else firstNonce }

def nonce (base : Bytes) (sequence : Nat) : Bytes :=
  toBytes 12 (fromBytes base ^^^ sequence)

/-- The nonce under which the next message is sent. -/
def nextNonce (session : ChannelSession) : Bytes :=
  nonce session.sendNonce (session.sendSequence + 1)

/-- `encrypt`, with the session it leaves. -/
def encrypt (session : ChannelSession) (plaintext : Bytes) : Except ChannelError Bytes × ChannelSession :=
  if plaintext.length > maxMessageBytes ∨ session.sendSequence ≥ maxSequence then
    (.error .sendLimit, session)
  else
    (.ok ([1] ++ toBytes 8 (session.sendSequence + 1) ++
        session.sendCipher.encrypt session.nextNonce plaintext),
      { session with sendSequence := session.sendSequence + 1 })

/-- `int.from_bytes(envelope[1:9], "big")`. -/
def sequenceOf (envelope : Bytes) : Nat :=
  fromBytes ((envelope.drop 1).take 8)

/-- The packet has not the form of an envelope. -/
def malformed (envelope : Bytes) : Bool :=
  envelope.length < 25 || envelope.length > maxMessageBytes + 25 || envelope.head? != some 1

/-- The replay check. The distance to the highest number may be negative. -/
def refuses (session : ChannelSession) (sequence : Nat) : Bool :=
  let distance : Int := session.recvMax - sequence
  sequence == 0 || 64 ≤ distance ||
    (0 ≤ distance && session.recvBitmap &&& (1 <<< distance.toNat) != 0)

/-- The assignments to the window that follow an authenticated packet. -/
def record (session : ChannelSession) (sequence : Nat) : ChannelSession :=
  if sequence > session.recvMax then
    let shift := sequence - session.recvMax
    let moved := if shift ≥ 64 then 0 else (session.recvBitmap <<< shift) &&& maxSequence
    { session with recvMax := sequence, recvBitmap := moved ||| 1 }
  else
    { session with recvBitmap := session.recvBitmap ||| 1 <<< (session.recvMax - sequence) }

/-- `decrypt`, with the session it leaves. -/
def decrypt (session : ChannelSession) (envelope : Bytes) : Except ChannelError Bytes × ChannelSession :=
  if malformed envelope then (.error .invalidEnvelope, session)
  else
    let sequence := sequenceOf envelope
    if session.refuses sequence then (.error .replayed, session)
    else
      match session.recvCipher.decrypt (nonce session.recvNonce sequence) (envelope.drop 9) with
      | none => (.error .invalidTag, session)
      | some plaintext => (.ok plaintext, session.record sequence)

end ChannelSession

/-- What happens at one end of a channel: it sends, its peer sends, or the
network delivers some bytes. -/
inductive ChannelEvent where
  | encrypt (plaintext : Bytes)
  | peerEncrypt (plaintext : Bytes)
  | decrypt (envelope : Bytes)

/-- One end of a channel, its peer, and what has happened: the nonces used to
send, what the peer produced, and the sequence numbers accepted. -/
structure Channel where
  session : ChannelSession
  peer : ChannelSession
  nonces : List Bytes := []
  produced : List (Bytes × Bytes) := []
  accepted : List Nat := []

namespace Channel

def step (channel : Channel) : ChannelEvent → Channel
  | .encrypt plaintext =>
    match channel.session.encrypt plaintext with
    | (.error _, session) => { channel with session := session }
    | (.ok _, session) =>
      { channel with session := session, nonces := channel.session.nextNonce :: channel.nonces }
  | .peerEncrypt plaintext =>
    match channel.peer.encrypt plaintext with
    | (.error _, peer) => { channel with peer := peer }
    | (.ok envelope, peer) =>
      { channel with peer := peer, produced := (plaintext, envelope) :: channel.produced }
  | .decrypt envelope =>
    match channel.session.decrypt envelope with
    | (.error _, session) => { channel with session := session }
    | (.ok _, session) =>
      { channel with
        session := session
        accepted := ChannelSession.sequenceOf envelope :: channel.accepted }

/-- Ideal authenticated encryption at a delivery: the cipher opens exactly what
the peer produced. -/
def Authenticates (channel : Channel) (envelope : Bytes) : Prop :=
  ∀ plaintext,
    channel.session.recvCipher.decrypt
        (ChannelSession.nonce channel.session.recvNonce (ChannelSession.sequenceOf envelope)) (envelope.drop 9) =
      some plaintext ↔ (plaintext, envelope) ∈ channel.produced

/-- The two ends after the key exchange. -/
def start (aesgcm : Bytes → Cipher) (hkdf : (salt shared : Bytes) → Bytes)
    (shared agentPublic masterPublic : Bytes) (isMaster : Bool) : Channel :=
  { session := .init aesgcm hkdf shared agentPublic masterPublic isMaster
    peer := .init aesgcm hkdf shared agentPublic masterPublic !isMaster }

end Channel

end OpenNode
