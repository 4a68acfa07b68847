import Gloworm.PacketDecodeBounds

/-! A segment on the wire: `ipv4_encode_header` of `ipv4.c`, `tcp_setup_packet`,
`tcp_finalize_and_send_packet` and the part of `tcp_send_packet` between them, and what the receiver
decodes. -/
namespace Gloworm.TcpWire
open Word CheckedBytes Tcp PacketDecode List

structure Address where
  addr : ℕ
  port : ℕ
  addr_lt : addr < 2 ^ 32
  port_lt : port < 2 ^ 16

structure Outgoing where
  data : List Byte
  capacity : ℕ
  length : ℕ
  proto : Option Proto
  networkOffset : ℕ
  transportOffset : ℕ
  dataOffset : ℕ
  srcAddr : ℕ
  srcPort : ℕ
  destAddr : ℕ
  destPort : ℕ

def packetAlloc (proto : Option Proto) (capacity : ℕ) : Outgoing :=
  ⟨List.replicate capacity 0, capacity % 2 ^ 16, 0, proto, 0, 0, 0, 0, 0, 0, 0⟩

def ipv4EncodeHeader (pack : Outgoing) (src dest : Address) (length : ℕ) :
    Except Fault (Except ℤ Outgoing) :=
  match pack.proto with
  | none => .ok (.error (-1))
  | some proto =>
    if pack.capacity < (pack.length + ipv4HeaderSize + length) % 2 ^ 32 then .ok (.error (-2))
    else do
      let offset := pack.length
      let data ← store8 pack.data offset 0x45
      let data ← store8 data (offset + 1) 0
      let data ← store16 data (offset + 2) (ipv4HeaderSize + length)
      let data ← store16 data (offset + 4) 0
      -- the flags take three bits and the fragment offset the others
      let data ← store16 data (offset + 6) 0x4000
      let data ← store8 data (offset + 8) 0x40
      let data ← store8 data (offset + 9) proto.number
      let data ← store16 data (offset + 10) 0
      let data ← store32 data (offset + 12) src.addr
      let data ← store32 data (offset + 16) dest.addr
      let checksum ← ipv4CalculateChecksum data offset ipv4HeaderSize 0
      let data ← store16 data (offset + 10) checksum
      return .ok { pack with
        data := data
        networkOffset := offset
        length := (offset + ipv4HeaderSize) % 2 ^ 16
        srcAddr := src.addr
        srcPort := src.port
        destAddr := dest.addr
        destPort := dest.port
        transportOffset := (offset + ipv4HeaderSize) % 2 ^ 16 }

def tcpSetupPacket (pack : Outgoing) (src dest : Address) (length : ℕ) :
    Except Fault (Except ℤ Outgoing) := do
  match ← ipv4EncodeHeader pack src dest (tcpHeaderSize + length) with
  | .error error => return .error error
  | .ok pack => do
    let offset := pack.length
    let data ← write pack.data offset (List.replicate tcpHeaderSize 0)
    let data ← store16 data offset src.port
    let data ← store16 data (offset + 2) dest.port
    let word ← load16 data (offset + 12)
    let data ← store16 data (offset + 12) (5 * 4096 + word % 4096)
    let data ← store16 data (offset + 16) 0
    return .ok { pack with
      data := data
      transportOffset := offset
      length := (offset + tcpHeaderSize) % 2 ^ 16
      dataOffset := (offset + tcpHeaderSize) % 2 ^ 16 }

structure Segment where
  flags : ℕ
  seqnum : ℕ
  acknum : ℕ
  payload : List Byte
  flags_lt : flags < 2 ^ 12
  seqnum_lt : seqnum < 2 ^ 32
  acknum_lt : acknum < 2 ^ 32

def fillSegment (pack : Outgoing) (seg : Segment) : Except Fault Outgoing := do
  let offset := pack.transportOffset
  let word ← load16 pack.data (offset + 12)
  let data ← store16 pack.data (offset + 12) (word / 4096 * 4096 + seg.flags)
  let data ← store32 data (offset + 8) seg.acknum
  let data ← store32 data (offset + 4) seg.seqnum
  let data ← write data pack.length seg.payload
  return { pack with data := data, length := (pack.length + seg.payload.length) % 2 ^ 16 }

def Outgoing.raw (pack : Outgoing) (data : List Byte) : Raw :=
  ⟨data.take pack.length, pack.proto, pack.networkOffset, pack.transportOffset, pack.dataOffset,
    pack.srcAddr, pack.srcPort, pack.destAddr, pack.destPort⟩

def tcpFinalizeAndSendPacket (pack : Outgoing) : Except Fault (List Byte) := do
  let offset := pack.transportOffset
  let data ← rewrite16 pack.data offset
  let data ← rewrite16 data (offset + 2)
  let data ← rewrite32 data (offset + 4)
  let data ← rewrite32 data (offset + 8)
  let data ← store16 data (offset + 14) 65535
  let data ← store16 data (offset + 16) 0xFFFF
  let data ← rewrite16 data (offset + 18)
  let checksum ← transportChecksum (pack.raw data) .tcp
  let data ← store16 data (offset + 16) checksum
  return data.take pack.length

def buildSegment (capacity : ℕ) (src dest : Address) (seg : Segment) :
    Except Fault (Except ℤ (List Byte)) := do
  match ← tcpSetupPacket (packetAlloc (some .tcp) capacity) src dest seg.payload.length with
  | .error error => return .error error
  | .ok pack => do
    let pack ← fillSegment pack seg
    let sent ← tcpFinalizeAndSendPacket pack
    return .ok sent

variable {d d' : List Byte} {base n start len : ℕ}

lemma sumWords_eq (d : List Byte) (base start n : ℕ) (h : base + 2 * n ≤ d.length)
    (hbound : start + 65535 * n < 2 ^ 32) :
    sumWords d base start n = .ok (start + ∑ k ∈ Finset.range n, wordAt d (base + 2 * k)) ∧
      ∑ k ∈ Finset.range n, wordAt d (base + 2 * k) ≤ 65535 * n := by
  induction n with
  | zero => simp [sumWords]
  | succ n ih =>
    obtain ⟨hsum, hle⟩ := ih (by omega) (by omega)
    have hword := wordAt_lt d (base + 2 * n)
    rw [Finset.sum_range_succ]
    refine ⟨?_, by omega⟩
    rw [sumWords, hsum, ok_bind, load16_inside (by omega), ok_bind, ← Nat.add_assoc]
    exact congrArg Except.ok (Nat.mod_eq_of_lt (by omega))

def checksumTotal (d : List Byte) (base len start : ℕ) : ℕ :=
  start + ∑ k ∈ Finset.range (len / 2), wordAt d (base + 2 * k) +
    if len % 2 = 1 then byteAt d (base + len - 1) * 256 else 0

lemma checksumTotal_lt (d : List Byte) (base : ℕ) (hlen : len < 2 ^ 16)
    (hstart : start < 2 ^ 20) : checksumTotal d base len start < 2 ^ 32 - 65536 := by
  have hsum : ∑ k ∈ Finset.range (len / 2), wordAt d (base + 2 * k) ≤ (len / 2) * 65535 := by
    have := Finset.sum_le_card_nsmul (Finset.range (len / 2)) (fun k => wordAt d (base + 2 * k))
      65535 fun k _ => Nat.le_of_lt_succ (wordAt_lt d _)
    simpa using this
  have hlast := byteAt_lt d (base + len - 1)
  unfold checksumTotal
  split_ifs <;> omega

lemma checksum_eq (h : base + len ≤ d.length) (hlen : len < 2 ^ 16) (hstart : start < 2 ^ 20) :
    ipv4CalculateChecksum d base len start = .ok (foldSum (checksumTotal d base len start)) := by
  have hhalf : ((len : ℤ) / 2).toNat = len / 2 := by omega
  obtain ⟨hsum, hle⟩ := sumWords_eq d base start (len / 2) (by omega) (by omega)
  have htotal := checksumTotal_lt d base hlen hstart
  rw [ipv4CalculateChecksum, hhalf, hsum, ok_bind]
  unfold checksumTotal at htotal ⊢
  by_cases hodd : len % 2 = 1
  · have hodd' : (len : ℤ) % 2 = 1 := by omega
    have hindex : ((base : ℤ) + len - 1).toNat = base + len - 1 := by omega
    rw [if_pos hodd] at htotal ⊢
    rw [if_pos hodd', hindex, load8_inside (by omega), ok_bind]
    exact congrArg (fun total => Except.ok (foldSum total)) (Nat.mod_eq_of_lt (by omega))
  · have hodd' : ¬ (len : ℤ) % 2 = 1 := by omega
    rw [if_neg hodd, if_neg hodd', Nat.add_zero]
    rfl

lemma checksumTotal_congr (h : ∀ j, base ≤ j → j < base + len → byteAt d j = byteAt d' j) :
    checksumTotal d base len start = checksumTotal d' base len start := by
  have hwords : ∀ k ∈ Finset.range (len / 2),
      wordAt d (base + 2 * k) = wordAt d' (base + 2 * k) := by
    intro k hk
    have := Finset.mem_range.mp hk
    rw [wordAt, h _ (by omega) (by omega), h _ (by omega) (by omega), wordAt]
  unfold checksumTotal
  rw [Finset.sum_congr rfl hwords]
  split_ifs with hodd
  · rw [h _ (by omega) (by omega)]
  · rfl

lemma checksumTotal_put16 {m : ℕ} (hm : 2 * m + 2 ≤ len) (hin : base + 2 * m + 2 ≤ d.length)
    (v : ℕ) : checksumTotal (put16 d (base + 2 * m) v) base len start =
      checksumTotal (put16 d (base + 2 * m) 0) base len start + v % 65536 := by
  have hmem : m ∈ Finset.range (len / 2) := Finset.mem_range.mpr (by omega)
  have hother : ∀ w, ∀ k ∈ (Finset.range (len / 2)).erase m,
      wordAt (put16 d (base + 2 * m) w) (base + 2 * k) = wordAt d (base + 2 * k) := by
    intro w k hk
    have hne := (Finset.mem_erase.mp hk).1
    exact wordAt_put16_ne (by omega) w
  have hlast : ∀ w, len % 2 = 1 → byteAt (put16 d (base + 2 * m) w) (base + len - 1) =
      byteAt d (base + len - 1) := fun w hodd => byteAt_put16_ne (by omega) w
  unfold checksumTotal
  rw [← Finset.add_sum_erase _ _ hmem, ← Finset.add_sum_erase _ _ hmem,
    Finset.sum_congr rfl (hother v), Finset.sum_congr rfl (hother 0), wordAt_put16_self hin,
    wordAt_put16_self hin]
  split_ifs with hodd
  · rw [hlast v hodd, hlast 0 hodd]
    omega
  · omega

lemma foldSum_split {h l : ℕ} (hh : h < 65536) (hl : l < 65536) : foldSum (65536 * h + l) =
    65535 - if h + l < 65536 then h + l else h + l - 65535 := by
  have hlow : (65536 * h + l) % 65536 = l := by omega
  have hhigh : (65536 * h + l) / 65536 % 65536 = h := by omega
  rw [foldSum, hlow, hhigh]
  split_ifs <;> omega

lemma foldSum_preset {sum : ℕ} (hpos : 0 < sum) (hlt : sum + 65535 < 2 ^ 32) :
    foldSum (sum + 65535) = foldSum sum := by
  obtain ⟨h, l, hl, hsum⟩ : ∃ h l, l < 65536 ∧ sum = 65536 * h + l :=
    ⟨sum / 65536, sum % 65536, by omega, by omega⟩
  have hh : h + 1 < 65536 ∨ l = 0 ∧ h < 65536 := by omega
  by_cases hzero : l = 0
  · have hup : sum + 65535 = 65536 * h + 65535 := by omega
    rw [hup, hsum, foldSum_split (by omega) (by omega), foldSum_split (by omega) hl]
    split_ifs <;> omega
  · have hup : sum + 65535 = 65536 * (h + 1) + (l - 1) := by omega
    rw [hup, hsum, foldSum_split (by omega) (by omega), foldSum_split (by omega) hl]
    split_ifs <;> omega

lemma foldSum_lt (sum : ℕ) : foldSum sum < 65536 := by
  unfold foldSum
  dsimp only
  omega

def plainHeader (d : List Byte) (total : ℕ) (src dest : ℕ) : List Byte :=
  let d := (d.set 0 (UInt8.ofNat 0x45)).set 1 (UInt8.ofNat 0)
  let d := put16 (put16 (put16 d 2 total) 4 0) 6 0x4000
  let d := (d.set 8 (UInt8.ofNat 0x40)).set 9 (UInt8.ofNat 6)
  let d := put16 d 10 0
  let d := put16 (put16 d 12 (src / 65536)) 14 src
  put16 (put16 d 16 (dest / 65536)) 18 dest

@[simp] lemma length_plainHeader (d : List Byte) (total src dest : ℕ) :
    (plainHeader d total src dest).length = d.length := by
  simp [plainHeader]

lemma put16_put16 (d : List Byte) (i v w : ℕ) : put16 (put16 d i v) i w = put16 d i w := by
  simp only [put16]
  rw [set_comm _ _ (by omega : i + 1 ≠ i), set_set, set_set]

lemma take_put16 {i v : ℕ} : (put16 d i v).take n = put16 (d.take n) i v := by
  simp only [put16, take_set]

variable {src dest : ℕ}

structure HeaderFields (d : List Byte) (src dest : ℕ) : Prop where
  first : byteAt d 0 = 0x45
  protocol : byteAt d 9 = 6
  src : longAt d 12 = src
  dest : longAt d 16 = dest

lemma plainHeader_fields (total : ℕ) (hin : 20 ≤ d.length) (hsrc : src < 2 ^ 32)
    (hdest : dest < 2 ^ 32) : HeaderFields (plainHeader d total src dest) src dest ∧
      byteAt (plainHeader d total src dest) 10 = 0 ∧
      byteAt (plainHeader d total src dest) 11 = 0 := by
  refine ⟨⟨?_, ?_, ?_, ?_⟩, ?_, ?_⟩
  · simp (disch := first | omega | simp; omega) only [plainHeader, byteAt_put16_ne, byteAt_set_ne,
      byteAt_set_self]
    rfl
  · simp (disch := first | omega | simp; omega) only [plainHeader, byteAt_put16_ne, byteAt_set_self]
    rfl
  rotate_left 2
  · simp (disch := first | omega | simp; omega) only [plainHeader, byteAt_put16_ne]
    rw [byteAt_put16 (by simp; omega), if_pos rfl]
  · simp (disch := first | omega | simp; omega) only [plainHeader, byteAt_put16_ne]
    rw [byteAt_put16 (by simp; omega), if_neg (by decide), if_pos rfl]
  all_goals
    simp (disch := first | omega | simp; omega) only [plainHeader, longAt, wordAt_put16_ne,
      wordAt_put16_self]
    omega

def ipHeader (d : List Byte) (total src dest : ℕ) : List Byte :=
  put16 (plainHeader d total src dest) 10
    (foldSum (checksumTotal (plainHeader d total src dest) 0 ipv4HeaderSize 0))

lemma ipv4EncodeHeader_eq (capacity length : ℕ) (src dest : Address)
    (hfits : 20 + length ≤ capacity % 2 ^ 16) :
    ipv4EncodeHeader (packetAlloc (some .tcp) capacity) src dest length =
      .ok (.ok { packetAlloc (some .tcp) capacity with
        data := ipHeader (List.replicate capacity 0) (20 + length) src.addr dest.addr
        length := 20
        srcAddr := src.addr
        srcPort := src.port
        destAddr := dest.addr
        destPort := dest.port
        transportOffset := 20 }) := by
  have hroom : ¬ capacity % 2 ^ 16 < (ipv4HeaderSize + length) % 2 ^ 32 := by
    simp only [ipv4HeaderSize]
    omega
  obtain ⟨d, hd⟩ : ∃ d, d = List.replicate capacity (0 : Byte) := ⟨_, rfl⟩
  have hin : 20 ≤ d.length := by
    rw [hd, length_replicate]
    omega
  have hsum : ipv4CalculateChecksum (plainHeader d (20 + length) src.addr dest.addr) 0
      ipv4HeaderSize 0 = _ := checksum_eq (by simp [ipv4HeaderSize]; omega) (by decide) (by decide)
  unfold ipv4EncodeHeader
  simp only [packetAlloc, ← hd, if_neg hroom, Nat.zero_add]
  simp (disch := first | omega | simp; omega) only [store8_inside, store16_inside, store32_inside,
    ok_bind]
  change (ipv4CalculateChecksum (plainHeader d (20 + length) src.addr dest.addr) 0 ipv4HeaderSize 0
    >>= _) = _
  rw [hsum, ok_bind]
  rfl

@[simp] lemma length_ipHeader (d : List Byte) (total src dest : ℕ) :
    (ipHeader d total src dest).length = d.length := by
  simp [ipHeader]

def portHeader (d : List Byte) (src dest : ℕ) : List Byte :=
  put16 (put16 (put16 (put16 (splice d 20 (List.replicate 20 0)) 20 src) 22 dest) 32 (5 * 4096))
    36 0

lemma length_portHeader (src dest : ℕ) (hin : 40 ≤ d.length) :
    (portHeader d src dest).length = d.length := by
  simp only [portHeader, length_put16]
  exact length_splice (by simpa using hin)

lemma portHeader_words (src dest : ℕ) (hin : 40 ≤ d.length) :
    wordAt (portHeader d src dest) 20 = src % 65536 ∧
      wordAt (portHeader d src dest) 22 = dest % 65536 ∧
      wordAt (portHeader d src dest) 32 = 5 * 4096 := by
  have hclear : (splice d 20 (List.replicate 20 0)).length = d.length :=
    length_splice (by simpa using hin)
  refine ⟨?_, ?_, ?_⟩
  · rw [portHeader, wordAt_put16_ne (by omega), wordAt_put16_ne (by omega),
      wordAt_put16_ne (by omega), wordAt_put16_self (by omega)]
  · rw [portHeader, wordAt_put16_ne (by omega), wordAt_put16_ne (by omega),
      wordAt_put16_self (by rw [length_put16]; omega)]
  · rw [portHeader, wordAt_put16_ne (by omega),
      wordAt_put16_self (by simp only [length_put16]; omega)]

lemma byteAt_zeroes (m j : ℕ) : byteAt (List.replicate m 0) j = 0 := by
  rw [byteAt, List.getD_eq_getElem?_getD, List.getElem?_replicate]
  split_ifs <;> rfl

lemma tcpSetupPacket_eq {capacity length : ℕ} (src dest : Address)
    (hfits : 40 + length ≤ capacity % 2 ^ 16) :
    tcpSetupPacket (packetAlloc (some .tcp) capacity) src dest length =
      .ok (.ok { packetAlloc (some .tcp) capacity with
        data := portHeader (ipHeader (List.replicate capacity 0) (40 + length) src.addr dest.addr)
          src.port dest.port
        length := 40
        srcAddr := src.addr
        srcPort := src.port
        destAddr := dest.addr
        destPort := dest.port
        transportOffset := 20
        dataOffset := 40 }) := by
  obtain ⟨d, hd⟩ : ∃ d, d = ipHeader (List.replicate capacity (0 : Byte)) (40 + length) src.addr
    dest.addr := ⟨_, rfl⟩
  have hin : 40 ≤ d.length := by
    rw [hd, length_ipHeader, length_replicate]
    omega
  have hroom : 20 + (List.replicate 20 (0 : Byte)).length ≤ d.length := by simpa using hin
  have hcleared : (splice d 20 (List.replicate 20 0)).length = d.length := length_splice hroom
  have hword : wordAt (put16 (put16 (splice d 20 (List.replicate 20 0)) 20 src.port) 22 dest.port)
      32 = 0 := by
    rw [wordAt_put16_ne (by omega), wordAt_put16_ne (by omega), wordAt, byteAt_splice hroom,
      byteAt_splice hroom, if_pos (by simp), if_pos (by simp), byteAt_zeroes, byteAt_zeroes]
  have hencode := ipv4EncodeHeader_eq capacity (tcpHeaderSize + length) src dest
    (by simp only [tcpHeaderSize]; omega)
  rw [show 20 + (tcpHeaderSize + length) = 40 + length by simp only [tcpHeaderSize]; omega, ← hd]
    at hencode
  rw [tcpSetupPacket, hencode, ok_bind]
  simp only [tcpHeaderSize, Nat.reduceAdd]
  rw [write_inside hroom, ok_bind, store16_inside (by omega), ok_bind,
    store16_inside (by rw [length_put16]; omega), ok_bind,
    load16_inside (by simp only [length_put16]; omega), ok_bind, hword,
    store16_inside (by simp only [length_put16]; omega), ok_bind,
    store16_inside (by simp only [length_put16]; omega), ok_bind, hd]
  rfl

def filled (d : List Byte) (seg : Segment) : List Byte :=
  splice (put16 (put16 (put16 (put16 (put16 d 32 (wordAt d 32 / 4096 * 4096 + seg.flags)) 28
    (seg.acknum / 65536)) 30 seg.acknum) 24 (seg.seqnum / 65536)) 26 seg.seqnum) 40 seg.payload

lemma length_filled {seg : Segment} (hin : 40 + seg.payload.length ≤ d.length) :
    (filled d seg).length = d.length := by
  rw [filled, length_splice (by simpa using hin)]
  simp

variable {pack : Outgoing}

lemma fillSegment_eq {seg : Segment} (hin : 40 + seg.payload.length ≤ pack.data.length)
    (htransport : pack.transportOffset = 20) (hlength : pack.length = 40) :
    fillSegment pack seg = .ok { pack with
      data := filled pack.data seg
      length := (40 + seg.payload.length) % 2 ^ 16 } := by
  unfold fillSegment
  simp only [htransport, hlength, Nat.reduceAdd]
  simp (disch := first | omega | simp; omega) only [load16_inside, store16_inside, store32_inside,
    write_inside, ok_bind]
  rfl

section
variable {r : Raw} (hin : r.transportOffset ≤ r.data.length) (hshort : r.data.length < 2 ^ 16)
  (hsrc : r.srcAddr < 2 ^ 32) (hdest : r.destAddr < 2 ^ 32)
include hin hshort hsrc hdest

lemma pseudoSum_bounds : 0 < pseudoSum r .tcp ∧ pseudoSum r .tcp < 2 ^ 20 := by
  have hlen : toUnsigned ((r.data.length : ℤ) - r.transportOffset) =
      r.data.length - r.transportOffset := by
    unfold toUnsigned
    omega
  have hproto : Proto.tcp.number = 6 := rfl
  have hsrc' : r.srcAddr / 65536 + r.srcAddr % 65536 < 131072 := by omega
  have hdest' : r.destAddr / 65536 + r.destAddr % 65536 < 131072 := by omega
  rw [pseudoSum, hlen, hproto, Nat.mod_eq_of_lt (by omega)]
  omega

lemma transportChecksum_eq :
    transportChecksum r .tcp = .ok (foldSum (checksumTotal r.data r.transportOffset
      (r.data.length - r.transportOffset) (pseudoSum r .tcp))) := by
  have hlen : (r.data.length : ℤ) - r.transportOffset =
      ((r.data.length - r.transportOffset : ℕ) : ℤ) := by omega
  rw [transportChecksum, hlen]
  exact checksum_eq (by omega) (by omega) (pseudoSum_bounds hin hshort hsrc hdest).2
end

def unsummed (pack : Outgoing) : List Byte := (put16 pack.data 34 65535).take pack.length

lemma length_unsummed (hlength : pack.length ≤ pack.data.length) :
    (unsummed pack).length = pack.length := by
  rw [unsummed, length_take, length_put16]
  omega

lemma tcpFinalizeAndSendPacket_eq (hin : 40 ≤ pack.length)
    (hlength : pack.length ≤ pack.data.length) (hshort : pack.length < 2 ^ 16)
    (htransport : pack.transportOffset = 20) (hsrc : pack.srcAddr < 2 ^ 32)
    (hdest : pack.destAddr < 2 ^ 32) :
    tcpFinalizeAndSendPacket pack = .ok (put16 (unsummed pack) 36 (foldSum (checksumTotal
      (put16 (unsummed pack) 36 0xFFFF) 20 (pack.length - 20)
      (pseudoSum (pack.raw pack.data) .tcp)))) := by
  have hdata : (pack.raw (put16 (put16 pack.data 34 65535) 36 65535)).data =
      put16 (unsummed pack) 36 0xFFFF := by
    simp only [Outgoing.raw, take_put16, unsummed]
  have hsize : (pack.raw (put16 (put16 pack.data 34 65535) 36 65535)).data.length =
      pack.length := by
    rw [hdata, length_put16, length_unsummed hlength]
  have hraw : (pack.raw pack.data).data.length = pack.length := by
    rw [Outgoing.raw, length_take]
    omega
  have hoffset : (pack.raw (put16 (put16 pack.data 34 65535) 36 65535)).transportOffset = 20 :=
    htransport
  have hpseudo : pseudoSum (pack.raw (put16 (put16 pack.data 34 65535) 36 65535)) .tcp =
      pseudoSum (pack.raw pack.data) .tcp := by
    rw [pseudoSum, hsize, pseudoSum, hraw]
    rfl
  have hsum := transportChecksum_eq (r := pack.raw (put16 (put16 pack.data 34 65535) 36 65535))
    (by rw [hsize, hoffset]; omega) (by rw [hsize]; exact hshort) hsrc hdest
  rw [hsize, hoffset, hpseudo, hdata] at hsum
  unfold tcpFinalizeAndSendPacket
  simp only [htransport, Nat.reduceAdd]
  simp (disch := first | omega | simp; omega) only [rewrite16_inside, rewrite32_inside,
    store16_inside, ok_bind]
  rw [hsum, ok_bind, put16_put16, take_put16]
  rfl

variable {src dest : Address} {seg : Segment} {k : List Byte}

/-- The bytes as the receiver finds them, whatever is in the checksum field. -/
structure Laid (k : List Byte) (src dest : Address) (seg : Segment) : Prop where
  length : k.length = 40 + seg.payload.length
  header : HeaderFields k src.addr dest.addr
  checksum : wordAt k 10 = foldSum (checksumTotal (put16 k 10 0) 0 ipv4HeaderSize 0)
  srcPort : wordAt k 20 = src.port
  destPort : wordAt k 22 = dest.port
  seqnum : longAt k 24 = seg.seqnum
  acknum : longAt k 28 = seg.acknum
  flags : wordAt k 32 = 5 * 4096 + seg.flags
  payload : k.drop 40 = seg.payload

lemma Laid.put16_checksum (h : Laid k src dest seg) (v : ℕ) : Laid (put16 k 36 v) src dest seg := by
  have hhead : checksumTotal (put16 (put16 k 36 v) 10 0) 0 ipv4HeaderSize 0 =
      checksumTotal (put16 k 10 0) 0 ipv4HeaderSize 0 := by
    apply checksumTotal_congr
    intro j _ hj
    simp only [ipv4HeaderSize] at hj
    rw [byteAt_put16 (d := put16 k 36 v) (by simp [h.length]; omega),
      byteAt_put16 (d := k) (i := 10) (by simp [h.length]; omega), byteAt_put16_ne (by omega)]
  refine ⟨by simp [h.length], ⟨?_, ?_, ?_, ?_⟩, ?_, ?_, ?_, ?_, ?_, ?_, ?_⟩
  · rw [byteAt_put16_ne (by omega), h.header.first]
  · rw [byteAt_put16_ne (by omega), h.header.protocol]
  · rw [longAt, wordAt_put16_ne (by omega), wordAt_put16_ne (by omega), ← h.header.src, longAt]
  · rw [longAt, wordAt_put16_ne (by omega), wordAt_put16_ne (by omega), ← h.header.dest, longAt]
  · rw [hhead, wordAt_put16_ne (by omega), h.checksum]
  · rw [wordAt_put16_ne (by omega), h.srcPort]
  · rw [wordAt_put16_ne (by omega), h.destPort]
  · rw [longAt, wordAt_put16_ne (by omega), wordAt_put16_ne (by omega), ← h.seqnum, longAt]
  · rw [longAt, wordAt_put16_ne (by omega), wordAt_put16_ne (by omega), ← h.acknum, longAt]
  · rw [wordAt_put16_ne (by omega), h.flags]
  · rw [put16, drop_set_of_lt (by omega), drop_set_of_lt (by omega), h.payload]

def laidOut (d : List Byte) (src dest : Address) (seg : Segment) : List Byte :=
  (put16 (filled (portHeader (ipHeader d (40 + seg.payload.length) src.addr dest.addr) src.port
    dest.port) seg) 34 65535).take (40 + seg.payload.length)

lemma length_headers (src dest : Address) (total : ℕ) (hin : 40 ≤ d.length) :
    (portHeader (ipHeader d total src.addr dest.addr) src.port dest.port).length = d.length := by
  rw [length_portHeader _ _ (by simpa using hin), length_ipHeader]

lemma length_laidOut (hin : 40 + seg.payload.length ≤ d.length) :
    (laidOut d src dest seg).length = 40 + seg.payload.length := by
  have hport := length_headers (d := d) src dest (40 + seg.payload.length) (by omega)
  rw [laidOut, length_take, length_put16, length_filled (by rw [hport]; exact hin), hport]
  omega

lemma byteAt_laidOut {j : ℕ} (hin : 40 + seg.payload.length ≤ d.length) (hj : j < 20) :
    byteAt (laidOut d src dest seg) j =
      byteAt (ipHeader d (40 + seg.payload.length) src.addr dest.addr) j := by
  have hport := length_headers (d := d) src dest (40 + seg.payload.length) (by omega)
  rw [laidOut, byteAt_take (by omega), byteAt_put16_ne (by omega), filled,
    byteAt_splice (by simpa [hport] using hin), if_neg (by omega)]
  simp (disch := omega) only [byteAt_put16_ne, portHeader]
  rw [byteAt_splice (by simp; omega), if_neg (by omega)]

lemma ipHeader_fields (src dest : Address) (total : ℕ) (hin : 20 ≤ d.length) :
    HeaderFields (ipHeader d total src.addr dest.addr) src.addr dest.addr := by
  obtain ⟨⟨h1, h2, h3, h4⟩, -⟩ := plainHeader_fields total hin src.addr_lt dest.addr_lt
  simp only [longAt] at h3 h4
  refine ⟨?_, ?_, ?_, ?_⟩
  · rw [ipHeader, byteAt_put16_ne (by omega), h1]
  · rw [ipHeader, byteAt_put16_ne (by omega), h2]
  · rw [longAt, ipHeader, wordAt_put16_ne (by omega), wordAt_put16_ne (by omega), h3]
  · rw [longAt, ipHeader, wordAt_put16_ne (by omega), wordAt_put16_ne (by omega), h4]

section
variable (hin : 40 + seg.payload.length ≤ d.length)
include hin

lemma laidOut_checksum : wordAt (laidOut d src dest seg) 10 =
      foldSum (checksumTotal (put16 (laidOut d src dest seg) 10 0) 0 ipv4HeaderSize 0) := by
  obtain ⟨-, hten, heleven⟩ := plainHeader_fields (d := d) (40 + seg.payload.length) (by omega)
    src.addr_lt dest.addr_lt
  have hlen : 10 + 2 ≤ (laidOut d src dest seg).length := by
    rw [length_laidOut hin]
    omega
  have hsame : checksumTotal (put16 (laidOut d src dest seg) 10 0) 0 ipv4HeaderSize 0 =
      checksumTotal (plainHeader d (40 + seg.payload.length) src.addr dest.addr) 0 ipv4HeaderSize
        0 := by
    apply checksumTotal_congr
    intro j _ hj
    simp only [ipv4HeaderSize] at hj
    rw [byteAt_put16 hlen]
    split_ifs with h10 h11
    · rw [h10, hten]
    · rw [h11, heleven]
    · rw [byteAt_laidOut hin (by omega), ipHeader, byteAt_put16_ne (by omega)]
  rw [hsame, wordAt, byteAt_laidOut hin (by omega), byteAt_laidOut hin (by omega), ipHeader,
    ← wordAt,
    wordAt_put16_self (by simp; omega), Nat.mod_eq_of_lt (foldSum_lt _)]

lemma wordAt_laidOut {j : ℕ} (hj : j + 2 ≤ 34) : wordAt (laidOut d src dest seg) j =
      wordAt (put16 (put16 (put16 (put16 (put16 (portHeader (ipHeader d (40 + seg.payload.length)
        src.addr dest.addr) src.port dest.port) 32 (5 * 4096 + seg.flags)) 28
        (seg.acknum / 65536)) 30 seg.acknum) 24 (seg.seqnum / 65536)) 26 seg.seqnum) j := by
  have hport := length_headers (d := d) src dest (40 + seg.payload.length) (by omega)
  obtain ⟨-, -, hword⟩ := portHeader_words (d := ipHeader d (40 + seg.payload.length) src.addr
    dest.addr) src.port dest.port (by rw [length_ipHeader]; omega)
  rw [laidOut, wordAt_take (by omega), wordAt_put16_ne (by omega), filled,
    wordAt_splice_before (by simpa [hport] using hin) (by omega), hword]

lemma laidOut_laid : Laid (laidOut d src dest seg) src dest seg := by
  have hport := length_headers (d := d) src dest (40 + seg.payload.length) (by omega)
  have hlow : ∀ j, j < 20 → byteAt (laidOut d src dest seg) j =
      byteAt (ipHeader d (40 + seg.payload.length) src.addr dest.addr) j :=
    fun j hj => byteAt_laidOut hin hj
  obtain ⟨h1, h2, h3, h4⟩ := ipHeader_fields (d := d) src dest (40 + seg.payload.length) (by omega)
  obtain ⟨hwsrc, hwdest, -⟩ := portHeader_words (d := ipHeader d (40 + seg.payload.length) src.addr
    dest.addr) src.port dest.port (by rw [length_ipHeader]; omega)
  have hports := src.port_lt
  have hportd := dest.port_lt
  have hseq := seg.seqnum_lt
  have hack := seg.acknum_lt
  have hflags := seg.flags_lt
  refine ⟨length_laidOut hin, ⟨?_, ?_, ?_, ?_⟩, laidOut_checksum hin, ?_, ?_, ?_, ?_, ?_, ?_⟩
  · rw [hlow 0 (by decide), h1]
  · rw [hlow 9 (by decide), h2]
  · simp only [longAt, wordAt, Nat.reduceAdd] at h3 ⊢
    rw [hlow 12 (by decide), hlow 13 (by decide), hlow 14 (by decide), hlow 15 (by decide), h3]
  · simp only [longAt, wordAt, Nat.reduceAdd] at h4 ⊢
    rw [hlow 16 (by decide), hlow 17 (by decide), hlow 18 (by decide), hlow 19 (by decide), h4]
  · rw [wordAt_laidOut hin (by decide)]
    simp (disch := omega) only [wordAt_put16_ne, hwsrc]
    exact Nat.mod_eq_of_lt hports
  · rw [wordAt_laidOut hin (by decide)]
    simp (disch := omega) only [wordAt_put16_ne, hwdest]
    exact Nat.mod_eq_of_lt hportd
  case refine_10 =>
    rw [laidOut, take_put16, put16, drop_set_of_lt (by omega), drop_set_of_lt (by omega), filled]
    exact drop_take_splice (by simpa [hport] using hin)
  all_goals
    simp only [longAt, wordAt_laidOut hin, Nat.reduceAdd, Nat.reduceLeDiff]
    simp (disch := first | omega | simp [hport]; omega) only [wordAt_put16_ne, wordAt_put16_self]
    omega
end

def arrived (sent : List Byte) : Raw := ⟨sent, none, 0, 0, 0, 0, 0, 0, 0⟩

def decoded (sent : List Byte) (src dest : Address) : Raw :=
  ⟨sent, some .tcp, 0, 20, 40, src.addr, src.port, dest.addr, dest.port⟩

def presetChecksum (k : List Byte) (src dest : Address) (v : ℕ) : Except Fault ℕ :=
  transportChecksum (decoded (put16 k 36 v) src dest) .tcp

lemma presetChecksum_eq (h : Laid k src dest seg) (hshort : 40 + seg.payload.length < 2 ^ 16)
    (v : ℕ) : presetChecksum k src dest v = .ok (foldSum (checksumTotal (put16 k 36 v) 20
      (20 + seg.payload.length) (pseudoSum (decoded k src dest) .tcp))) := by
  have hlen : (put16 k 36 v).length = 40 + seg.payload.length := by rw [length_put16, h.length]
  have hsum := transportChecksum_eq (r := decoded (put16 k 36 v) src dest)
    (by simp only [decoded, hlen]; omega) (by simp only [decoded, hlen]; omega) src.addr_lt
    dest.addr_lt
  have hpseudo : pseudoSum (decoded (put16 k 36 v) src dest) .tcp =
      pseudoSum (decoded k src dest) .tcp := by
    simp only [pseudoSum, decoded, length_put16]
  rw [hpseudo] at hsum
  rw [presetChecksum, hsum]
  simp only [decoded, hlen]
  rw [show 40 + seg.payload.length - 20 = 20 + seg.payload.length by omega]

lemma presetChecksum_ones (h : Laid k src dest seg) (hshort : 40 + seg.payload.length < 2 ^ 16) :
    presetChecksum k src dest 0xFFFF = presetChecksum k src dest 0 := by
  have hbounds := pseudoSum_bounds (r := decoded k src dest) (by simp [decoded, h.length]; omega)
    (by simp only [decoded, h.length]; omega) src.addr_lt dest.addr_lt
  have htotal : checksumTotal (put16 k 36 0) 20 (20 + seg.payload.length)
      (pseudoSum (decoded k src dest) .tcp) < 2 ^ 32 - 65536 :=
    checksumTotal_lt (put16 k 36 0) 20 (by omega) hbounds.2
  have hones : checksumTotal (put16 k 36 0xFFFF) 20 (20 + seg.payload.length)
      (pseudoSum (decoded k src dest) .tcp) = checksumTotal (put16 k 36 0) 20
        (20 + seg.payload.length) (pseudoSum (decoded k src dest) .tcp) + 65535 :=
    checksumTotal_put16 (m := 8) (by omega) (by rw [h.length]; omega) 0xFFFF
  have hpos : 0 < checksumTotal (put16 k 36 0) 20 (20 + seg.payload.length)
      (pseudoSum (decoded k src dest) .tcp) := by
    have := hbounds.1
    unfold checksumTotal
    omega
  rw [presetChecksum_eq h hshort, presetChecksum_eq h hshort, hones, foldSum_preset hpos (by omega)]

lemma finalize_laid (hk : Laid (unsummed pack) src dest seg)
    (hshort : 40 + seg.payload.length < 2 ^ 16) (hlength : pack.length = 40 + seg.payload.length)
    (hroom : pack.length ≤ pack.data.length) (htransport : pack.transportOffset = 20)
    (hsrc : pack.srcAddr = src.addr) (hdest : pack.destAddr = dest.addr) :
    ∃ c, presetChecksum (unsummed pack) src dest 0xFFFF = .ok c ∧
      tcpFinalizeAndSendPacket pack = .ok (put16 (unsummed pack) 36 c) := by
  have hpseudo : pseudoSum (pack.raw pack.data) .tcp =
      pseudoSum (decoded (unsummed pack) src dest) .tcp := by
    have htake : min pack.length pack.data.length = 40 + seg.payload.length := by omega
    simp only [pseudoSum, Outgoing.raw, decoded, length_take, htake, hk.length, hsrc, hdest,
      htransport]
  refine ⟨_, presetChecksum_eq hk hshort 0xFFFF, ?_⟩
  rw [tcpFinalizeAndSendPacket_eq (by omega) hroom (by omega) htransport
    (hsrc ▸ src.addr_lt) (hdest ▸ dest.addr_lt), hpseudo, hlength,
    show 40 + seg.payload.length - 20 = 20 + seg.payload.length by omega]

lemma buildSegment_eq {capacity : ℕ} (src dest : Address) (seg : Segment)
    (hfits : 40 + seg.payload.length ≤ capacity % 2 ^ 16) :
    ∃ k c, Laid k src dest seg ∧ presetChecksum k src dest 0xFFFF = .ok c ∧
      buildSegment capacity src dest seg = .ok (.ok (put16 k 36 c)) := by
  have hroom : 40 + seg.payload.length ≤ (List.replicate capacity (0 : Byte)).length := by
    rw [length_replicate]
    omega
  have hshort : 40 + seg.payload.length < 2 ^ 16 := by omega
  have hsetup := tcpSetupPacket_eq src dest hfits
  generalize List.replicate capacity (0 : Byte) = d at hroom hsetup
  have hports := length_headers src dest (40 + seg.payload.length) (d := d) (by omega)
  have hlaid : Laid (laidOut d src dest seg) src dest seg := laidOut_laid hroom
  rw [buildSegment, hsetup, ok_bind]
  dsimp only
  rw [fillSegment_eq (by simpa only [hports] using hroom) rfl rfl, ok_bind, Nat.mod_eq_of_lt hshort]
  dsimp only
  generalize hpack : Outgoing.mk (filled _ seg) _ _ _ _ _ _ _ _ _ _ = pack
  have hunsummed : unsummed pack = laidOut d src dest seg := by
    rw [← hpack]
    rfl
  have hdata : pack.data.length = d.length := by
    rw [← hpack, ← hports]
    exact length_filled (by rw [hports]; exact hroom)
  rw [← hunsummed] at hlaid
  obtain ⟨c, hc, hsend⟩ := finalize_laid hlaid hshort (by rw [← hpack])
    (by rw [hdata, ← hpack]; exact hroom) (by rw [← hpack]) (by rw [← hpack]) (by rw [← hpack])
  rw [hsend]
  exact ⟨_, c, hlaid, hc, rfl⟩

section
variable (h : Laid k src dest seg)
include h

lemma Laid.headerOk : HeaderOk k 0 := by
  refine ⟨?_, ?_, ?_, ?_⟩
  · rw [h.length, ipv4HeaderSize]
    omega
  · rw [h.header.first]
  · rw [ihlAt, h.header.first]
    decide
  · rw [h.checksum]
    exact checksum_eq (by rw [length_put16, h.length, ipv4HeaderSize]; omega) (by decide)
      (by decide)

lemma Laid.protocolAt : protocolAt k 0 = some .tcp := by
  rw [PacketDecode.protocolAt, h.header.protocol]
  decide

lemma Laid.nextOffset : nextOffset k 0 = 20 := by
  rw [PacketDecode.nextOffset, ihlAt, h.header.first]
  decide

lemma Laid.opened : opened (arrived k) 0 .tcp =
    ⟨k, some .tcp, 0, 20, 0, src.addr, 0, dest.addr, 0⟩ := by
  simp only [PacketDecode.opened, arrived, h.nextOffset, Nat.zero_add, h.header.src, h.header.dest]

lemma Laid.decodeHeader (hshort : 40 + seg.payload.length < 2 ^ 16)
    (hsum : presetChecksum k src dest 0 = .ok (wordAt k 36)) (depth : ℕ) :
    decodeHeader (depth + 2) .ip (arrived k) 0 = .ok (.accepted (decoded k src dest)) := by
  have hlen : (arrived k).data.length < 2 ^ 16 := by
    rw [arrived, h.length]
    exact hshort
  rw [decodeHeader_nested hlen h.headerOk h.protocolAt, h.opened]
  show tcpDecodeHeader _ (PacketDecode.nextOffset k 0) = _
  rw [h.nextOffset]
  have hin : 20 + tcpHeaderSize ≤
      (Raw.mk k (some .tcp) 0 20 0 src.addr 0 dest.addr 0).data.length := by
    rw [h.length, tcpHeaderSize]
    omega
  rcases tcpDecodeHeader_inside (by rw [h.length]; exact hshort) hin with ⟨-, heq⟩ | ⟨hno, -⟩
  · have hdata : (20 + segmentHeader k 20) % 2 ^ 16 = 40 := by
      have := seg.flags_lt
      rw [segmentHeader, h.flags]
      omega
    rw [heq]
    simp only [decoded, hdata, h.srcPort, h.destPort]
  · exact absurd hsum hno

lemma Laid.loadSegment :
    loadSegment (decoded k src dest) = .ok ⟨seg.flags, seg.seqnum, seg.acknum, seg.payload⟩ := by
  have hflags : wordAt k 32 % 4096 = seg.flags := by
    have := seg.flags_lt
    rw [h.flags]
    omega
  rw [loadSegment_inside (by simp only [decoded, h.length, tcpHeaderSize]; omega)]
  simp only [decoded, Nat.reduceAdd, hflags, h.seqnum, h.acknum, h.payload]
end

/-- The built segment is accepted, and its addresses, header and payload come out as they went
in. -/
theorem segment_round_trip (capacity : ℕ) (src dest : Address) (seg : Segment)
    (hfits : ipv4HeaderSize + tcpHeaderSize + seg.payload.length ≤
      (packetAlloc (some .tcp) capacity).capacity) :
    ∃ sent, buildSegment capacity src dest seg = .ok (.ok sent) ∧
      (∀ depth, decodeHeader (depth + 2) .ip (arrived sent) 0 =
        .ok (.accepted (decoded sent src dest))) ∧
      loadSegment (decoded sent src dest) =
        .ok ⟨seg.flags, seg.seqnum, seg.acknum, seg.payload⟩ ∧
      presetChecksum sent src dest 0xFFFF = .ok (wordAt sent 36) ∧
      presetChecksum sent src dest 0 = .ok (wordAt sent 36) := by
  obtain ⟨k, c, hk, hc, hbuild⟩ := buildSegment_eq src dest seg hfits
  have hshort : 40 + seg.payload.length < 2 ^ 16 :=
    hfits.trans_lt (Nat.mod_lt _ (by decide))
  have hsent := hk.put16_checksum c
  have hpreset : ∀ v, presetChecksum (put16 k 36 c) src dest v = presetChecksum k src dest v := by
    intro v
    rw [presetChecksum, put16_put16, presetChecksum]
  have hword : wordAt (put16 k 36 c) 36 = c := by
    rw [presetChecksum_eq hk hshort] at hc
    rw [wordAt_put16_self (by rw [hk.length]; omega), ← Except.ok.inj hc]
    exact Nat.mod_eq_of_lt (foldSum_lt _)
  have hones : presetChecksum (put16 k 36 c) src dest 0xFFFF = .ok (wordAt (put16 k 36 c) 36) := by
    rw [hpreset, hword, hc]
  have hzero : presetChecksum (put16 k 36 c) src dest 0 = .ok (wordAt (put16 k 36 c) 36) := by
    rw [← presetChecksum_ones hsent hshort, hones]
  exact ⟨_, hbuild, hsent.decodeHeader hshort hzero, hsent.loadSegment, hones, hzero⟩

theorem segment_round_trip_odd : ∃ sent, buildSegment 600 ⟨0xC0A80001, 1024, by decide, by decide⟩
        ⟨0xC0A80002, 80, by decide, by decide⟩ ⟨0x18, 0xFFFFFFFF, 7, [1, 2, 3], by decide,
          by decide, by decide⟩ = .ok (.ok sent) ∧
      loadSegment (decoded sent ⟨0xC0A80001, 1024, by decide, by decide⟩
        ⟨0xC0A80002, 80, by decide, by decide⟩) = .ok ⟨0x18, 0xFFFFFFFF, 7, [1, 2, 3]⟩ := by
  obtain ⟨sent, hbuild, -, hload, -⟩ := segment_round_trip 600
    ⟨0xC0A80001, 1024, by decide, by decide⟩ ⟨0xC0A80002, 80, by decide, by decide⟩
    ⟨0x18, 0xFFFFFFFF, 7, [1, 2, 3], by decide, by decide, by decide⟩ (by decide)
  exact ⟨sent, hbuild, hload⟩

end Gloworm.TcpWire
