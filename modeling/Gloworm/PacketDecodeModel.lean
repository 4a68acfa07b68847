import Gloworm.CheckedBytes
import Gloworm.TcpSession

/-! Decoding and forwarding a received packet: `ipv4.c`, `icmp.c`, `udp.c` and the header part of
`tcp.c`. The bytes are a checked block; the machine is big-endian, so `be16toh` rewrites a field
with itself. -/
namespace Gloworm.PacketDecode
open Word CheckedBytes Tcp

inductive Proto
  | ip
  | icmp
  | udp
  | tcp
  deriving DecidableEq, Repr

def Proto.number : Proto → ℕ
  | .ip => 0
  | .icmp => 1
  | .udp => 17
  | .tcp => 6

def protoList : List Proto := [.ip, .icmp, .udp, .tcp]

def netGetProtocol (protocol : ℕ) : Option Proto :=
  protoList.find? fun p => protocol = 0 ∨ p.number = protocol

/-- A packet with what the decoders have found out about it. -/
structure Raw where
  data : List Byte
  proto : Option Proto
  networkOffset : ℕ
  transportOffset : ℕ
  dataOffset : ℕ
  srcAddr : ℕ
  srcPort : ℕ
  destAddr : ℕ
  destPort : ℕ

inductive Parsed (α : Type)
  | rejected (error : ℤ)
  | accepted (result : α)

def ipv4HeaderSize : ℕ := 20
def tcpHeaderSize : ℕ := 20
def udpHeaderSize : ℕ := 8
def icmpHeaderSize : ℕ := 8

/-- The test for room, with the difference taken as an unsigned number. -/
def tooShort (pack : Raw) (offset size : ℕ) : Prop :=
  toUnsigned ((pack.data.length : ℤ) - offset) < size
deriving Decidable

def sumWords (d : List Byte) (base start : ℕ) : ℕ → Except Fault ℕ
  | 0 => .ok start
  | n + 1 => do
    let sum ← sumWords d base start n
    let w ← load16 d (base + 2 * n)
    return (sum + w) % 2 ^ 32

/-- Fold the carries of a checksum into 16 bits. -/
def foldSum (sum : ℕ) : ℕ :=
  let folded := sum % 65536 + sum / 65536 % 65536
  65535 - (if folded / 65536 ≠ 0 then folded + 1 else folded) % 65536

def ipv4CalculateChecksum (d : List Byte) (base : ℕ) (len : ℤ) (start : ℕ) : Except Fault ℕ := do
  let sum ← sumWords d base start (len / 2).toNat
  if len % 2 = 1 then do
    let last ← load8 d (base + len - 1).toNat
    return foldSum ((sum + last * 256) % 2 ^ 32)
  else return foldSum sum

def ipv4ReadHeader (pack : Raw) (offset : ℕ) : Except Fault (Parsed (Raw × Proto)) :=
  if tooShort pack offset ipv4HeaderSize then .ok (.rejected (-1))
  else do
    let first ← load8 pack.data offset
    if first / 16 ≠ 4 ∨ first % 16 < 5 ∨ 9 < first % 16 then .ok (.rejected (-2))
    else do
      let data ← rewrite16 pack.data (offset + 2)
      let data ← rewrite16 data (offset + 10)
      let data ← rewrite32 data (offset + 12)
      let data ← rewrite32 data (offset + 16)
      let checksum ← load16 data (offset + 10)
      let data ← store16 data (offset + 10) 0
      let sum ← ipv4CalculateChecksum data offset ipv4HeaderSize 0
      if checksum ≠ sum then .ok (.rejected (-3))
      else do
        let data ← store16 data (offset + 10) checksum
        let src ← load32 data (offset + 12)
        let dest ← load32 data (offset + 16)
        let protocol ← load8 data (offset + 9)
        match netGetProtocol protocol with
        | none => .ok (.rejected (-4))
        | some next => .ok (.accepted (⟨data, some next, offset,
            (offset + first % 16 * 4) % 2 ^ 16, pack.dataOffset, src, 0, dest, 0⟩, next))

/-- The addresses and the protocol, as they count for the checksum. -/
def pseudoSum (pack : Raw) (proto : Proto) : ℕ :=
  (pack.srcAddr / 65536 + pack.srcAddr % 65536 + pack.destAddr / 65536 + pack.destAddr % 65536 +
    proto.number + toUnsigned ((pack.data.length : ℤ) - pack.transportOffset)) % 2 ^ 32

def transportChecksum (pack : Raw) (proto : Proto) : Except Fault ℕ :=
  ipv4CalculateChecksum pack.data pack.transportOffset
    ((pack.data.length : ℤ) - pack.transportOffset) (pseudoSum pack proto)

def tcpDecodeHeader (pack : Raw) (offset : ℕ) : Except Fault (Parsed Raw) :=
  if tooShort pack offset tcpHeaderSize then .ok (.rejected (-5))
  else do
    let data ← rewrite16 pack.data offset
    let data ← rewrite16 data (offset + 2)
    let data ← rewrite32 data (offset + 4)
    let data ← rewrite32 data (offset + 8)
    let data ← rewrite16 data (offset + 12)
    let data ← rewrite16 data (offset + 14)
    let data ← rewrite16 data (offset + 16)
    let data ← rewrite16 data (offset + 18)
    let word ← load16 data (offset + 12)
    let src ← load16 data offset
    let dest ← load16 data (offset + 2)
    let checksum ← load16 data (offset + 16)
    let zeroed ← store16 data (offset + 16) 0
    let pack := { pack with
      data := zeroed
      transportOffset := offset
      dataOffset := (offset + word / 4096 * 4) % 2 ^ 16
      srcPort := src
      destPort := dest }
    let sum ← transportChecksum pack .tcp
    if checksum ≠ sum then .ok (.rejected (-7))
    else do
      let data ← store16 zeroed (offset + 16) checksum
      .ok (.accepted { pack with data := data })

def udpDecodeHeader (pack : Raw) (offset : ℕ) : Except Fault (Parsed Raw) :=
  if tooShort pack offset udpHeaderSize then .ok (.rejected (-5))
  else do
    let data ← rewrite16 pack.data offset
    let data ← rewrite16 data (offset + 2)
    let data ← rewrite16 data (offset + 4)
    let data ← rewrite16 data (offset + 6)
    let length ← load16 data (offset + 4)
    if (length : ℤ) ≠ (pack.data.length : ℤ) - offset then .ok (.rejected (-6))
    else do
      let src ← load16 data offset
      let dest ← load16 data (offset + 2)
      let checksum ← load16 data (offset + 6)
      let zeroed ← store16 data (offset + 6) 0
      let pack := { pack with
        data := zeroed
        transportOffset := offset
        dataOffset := (offset + udpHeaderSize) % 2 ^ 16
        srcPort := src
        destPort := dest }
      let sum ← transportChecksum pack .udp
      if checksum ≠ sum then .ok (.rejected (-7))
      else do
        let data ← store16 zeroed (offset + 6) checksum
        .ok (.accepted { pack with data := data })

def icmpDecodeHeader (pack : Raw) (offset : ℕ) : Except Fault (Parsed Raw) :=
  if tooShort pack offset icmpHeaderSize then .ok (.rejected (-1))
  else do
    let data ← rewrite16 pack.data (offset + 2)
    let data ← rewrite32 data (offset + 4)
    let checksum ← load16 data (offset + 2)
    let zeroed ← store16 data (offset + 2) 0
    let sum ← ipv4CalculateChecksum zeroed offset ((pack.data.length : ℤ) - offset) 0
    if checksum ≠ sum then .ok (.rejected (-2))
    else do
      let data ← store16 zeroed (offset + 2) checksum
      .ok (.accepted { pack with
        data := data
        transportOffset := offset
        dataOffset := (offset + icmpHeaderSize) % 2 ^ 16 })

/-- The depth bounds the calls that are open, since a packet may hold packets. -/
def decodeHeader : ℕ → Proto → Raw → ℕ → Except Fault (Parsed Raw)
  | 0, _, _, _ => .error .unfinished
  | depth + 1, .ip, pack, offset =>
    match ipv4ReadHeader pack offset with
    | .error e => .error e
    | .ok (.rejected error) => .ok (.rejected error)
    | .ok (.accepted (pack, next)) => decodeHeader depth next pack pack.transportOffset
  | _ + 1, .tcp, pack, offset => tcpDecodeHeader pack offset
  | _ + 1, .udp, pack, offset => udpDecodeHeader pack offset
  | _ + 1, .icmp, pack, offset => icmpDecodeHeader pack offset

inductive Forwarded
  | dropped
  | segment (result : Option Handled)
  | queued
  | replied (reply : List Byte)

def loadSegment (pack : Raw) : Except Fault Packet := do
  let seqnum ← load32 pack.data (pack.transportOffset + 4)
  let acknum ← load32 pack.data (pack.transportOffset + 8)
  let word ← load16 pack.data (pack.transportOffset + 12)
  return ⟨word % 4096, seqnum, acknum, pack.data.drop pack.dataOffset⟩

/-- The end of the bytes that are handed to `_buf_put`. -/
def deliverEnd (tep : Endpoint) (seg : Packet) : ℕ :=
  let length : ℤ := seg.data.length
  if tep.rxLastSeq < seg.seqnum then 0
  else if tep.rxLastSeq < add32 seg.seqnum (toUnsigned length) then
    let index := sub32 tep.rxLastSeq seg.seqnum
    index + (toShort (length - index)).toNat
  else 0

def tcpForward (s : Session) (p : ℕ) (pack : Raw) : Except Fault Forwarded :=
  if s.tep.state = .closed then .ok .dropped
  else do
    let seg ← loadSegment pack
    .ok (.segment (tcpForwardPacket s p seg))

def icmpTypeEcho : ℕ := 8

def icmpForward (pack : Raw) : Except Fault Forwarded := do
  let type ← load8 pack.data pack.transportOffset
  -- the log message
  let _ ← load8 pack.data (pack.transportOffset + 1)
  if type ≠ icmpTypeEcho then .ok .dropped
  else
    let length := pack.data.length - pack.transportOffset
    -- the capacity of the reply is a 16-bit field
    if (length + 100) % 2 ^ 16 < ipv4HeaderSize + length then .ok .dropped
    else do
      let data ← store8 pack.data pack.transportOffset 0
      let data ← store8 data (pack.transportOffset + 1) 0
      let data ← store16 data (pack.transportOffset + 2) 0
      let checksum ← ipv4CalculateChecksum data pack.transportOffset length 0
      let data ← store16 data (pack.transportOffset + 2) checksum
      let reply ← copy data pack.transportOffset length
      .ok (.replied reply)

def forwardPacket (endpoint : Option Session) (p : ℕ) (pack : Raw) : Except Fault Forwarded :=
  match pack.proto, endpoint with
  | some .tcp, some s => tcpForward s p pack
  | some .udp, some _ => .ok .queued
  | some .icmp, _ => icmpForward pack
  | _, _ => .ok .dropped

/-- A packet from an interface, whose length has 16 bits. -/
structure Received where
  data : List Byte
  short : data.length < 2 ^ 16

def Received.raw (r : Received) : Raw := ⟨r.data, none, 0, 0, 0, 0, 0, 0, 0⟩

end Gloworm.PacketDecode
