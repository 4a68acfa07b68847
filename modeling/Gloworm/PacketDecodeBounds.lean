import Gloworm.PacketDecodeModel

/-! Decoding stays inside the packet exactly when every header that is reached points to a place
inside it. -/
namespace Gloworm.PacketDecode
open Word CheckedBytes Tcp
variable {pack : Raw} {d : List Byte} {offset size base : ℕ}

lemma tooShort_iff (hlen : pack.data.length < 2 ^ 16) (hoff : offset < 2 ^ 16)
    (hsize : size < 2 ^ 16) :
    tooShort pack offset size ↔ offset ≤ pack.data.length ∧ pack.data.length < offset + size := by
  unfold tooShort toUnsigned
  omega

lemma not_tooShort (hlen : pack.data.length < 2 ^ 16) (hsize : 0 < size)
    (hin : offset + size ≤ pack.data.length) : ¬ tooShort pack offset size := by
  rw [tooShort_iff hlen (by omega) (by omega)]
  omega

lemma store16_back (h : offset + 2 ≤ d.length) :
    store16 (put16 d offset 0) offset (wordAt d offset) = .ok d := by
  rw [store16_inside (by rwa [length_put16]), put16_put16_wordAt]

lemma sumWords_inside (start : ℕ) {n : ℕ} (h : base + 2 * n ≤ d.length) :
    ∃ sum, sumWords d base start n = .ok sum := by
  induction n with
  | zero => exact ⟨start, rfl⟩
  | succ n ih =>
    obtain ⟨sum, hsum⟩ := ih (by omega)
    refine ⟨(sum + wordAt d (base + 2 * n)) % 2 ^ 32, ?_⟩
    rw [sumWords, hsum, ok_bind, load16_inside (by omega)]
    rfl

lemma checksum_inside (start : ℕ) {len : ℤ} (hpos : 0 ≤ len) (h : base + len ≤ d.length) :
    ∃ sum, ipv4CalculateChecksum d base len start = .ok sum := by
  have hwords : base + 2 * (len / 2).toNat ≤ d.length := by omega
  obtain ⟨sum, hsum⟩ := sumWords_inside start hwords
  rw [ipv4CalculateChecksum, hsum, ok_bind]
  split_ifs with hodd
  · rw [load8_inside (by omega)]
    exact ⟨_, rfl⟩
  · exact ⟨_, rfl⟩

lemma checksum_zeroed (field start : ℕ) {n : ℕ} (h : base + n ≤ d.length) :
    ∃ sum, ipv4CalculateChecksum (put16 d field 0) base ((d.length : ℤ) - base) start = .ok sum :=
  checksum_inside start (by omega) (by rw [length_put16]; omega)

def ihlAt (d : List Byte) (offset : ℕ) : ℕ := byteAt d offset % 16

def nextOffset (d : List Byte) (offset : ℕ) : ℕ := (offset + ihlAt d offset * 4) % 2 ^ 16

def protocolAt (d : List Byte) (offset : ℕ) : Option Proto := netGetProtocol (byteAt d (offset + 9))

structure HeaderOk (d : List Byte) (offset : ℕ) : Prop where
  inside : offset + ipv4HeaderSize ≤ d.length
  version : byteAt d offset / 16 = 4
  ihl : 5 ≤ ihlAt d offset ∧ ihlAt d offset ≤ 9
  checksum : ipv4CalculateChecksum (put16 d (offset + 10) 0) offset ipv4HeaderSize 0 =
    .ok (wordAt d (offset + 10))

def opened (pack : Raw) (offset : ℕ) (next : Proto) : Raw :=
  ⟨pack.data, some next, offset, nextOffset pack.data offset, pack.dataOffset,
    longAt pack.data (offset + 12), 0, longAt pack.data (offset + 16), 0⟩

lemma ipv4ReadHeader_beyond (hlen : pack.data.length < 2 ^ 16) (hoff : offset < 2 ^ 16)
    (h : pack.data.length < offset) : ipv4ReadHeader pack offset = .error .outside := by
  have hpass : ¬ tooShort pack offset ipv4HeaderSize := by
    rw [tooShort_iff hlen hoff (by decide)]
    omega
  rw [ipv4ReadHeader, if_neg hpass, load8_outside h.le]
  rfl

lemma ipv4ReadHeader_inside (hlen : pack.data.length < 2 ^ 16)
    (hin : offset + ipv4HeaderSize ≤ pack.data.length) :
    (∃ next, HeaderOk pack.data offset ∧ protocolAt pack.data offset = some next ∧
      ipv4ReadHeader pack offset = .ok (.accepted (opened pack offset next, next))) ∨
    (∀ next, HeaderOk pack.data offset → protocolAt pack.data offset ≠ some next) ∧
      ∃ error, ipv4ReadHeader pack offset = .ok (.rejected error) := by
  have hbound : offset + 20 ≤ pack.data.length := hin
  have hpass := not_tooShort hlen (by decide) hin
  rw [ipv4ReadHeader, if_neg hpass, load8_inside (by omega), ok_bind]
  by_cases hfirst : byteAt pack.data offset / 16 ≠ 4 ∨ byteAt pack.data offset % 16 < 5 ∨
      9 < byteAt pack.data offset % 16
  · right
    refine ⟨fun next hok => ?_, -2, if_pos hfirst⟩
    have h1 := hok.version
    have h2 := hok.ihl
    unfold ihlAt at h2
    omega
  · rw [if_neg hfirst]
    have hzeroed : offset + (ipv4HeaderSize : ℤ) ≤ (put16 pack.data (offset + 10) 0).length := by
      simpa using mod_cast hin
    obtain ⟨sum, hsum⟩ := checksum_inside 0 (by decide) hzeroed
    simp (disch := omega) only [rewrite16_inside, rewrite32_inside, load16_inside, store16_inside,
      ok_bind, hsum]
    by_cases hcheck : wordAt pack.data (offset + 10) = sum
    · rw [if_neg (by simpa using hcheck)]
      simp (disch := omega) only [store16_back, ok_bind, load32_inside, load8_inside]
      cases hproto : netGetProtocol (byteAt pack.data (offset + 9)) with
      | none =>
        right
        exact ⟨fun next _ => by simp [protocolAt, hproto], -4, rfl⟩
      | some next =>
        left
        refine ⟨next, ⟨hin, by omega, ?_, ?_⟩, hproto, rfl⟩
        · unfold ihlAt
          omega
        · rw [hsum, hcheck]
    · right
      refine ⟨fun next hok => ?_, -3, if_pos hcheck⟩
      have h1 := hok.checksum
      rw [hsum, Except.ok.injEq] at h1
      exact absurd h1.symm hcheck

def SegmentOk (pack : Raw) (offset : ℕ) : Prop :=
  transportChecksum { pack with
    data := put16 pack.data (offset + 16) 0
    transportOffset := offset } .tcp = .ok (wordAt pack.data (offset + 16))

def segmentHeader (d : List Byte) (offset : ℕ) : ℕ := wordAt d (offset + 12) / 4096 * 4

lemma segmentHeader_le (d : List Byte) (offset : ℕ) : segmentHeader d offset ≤ 60 := by
  have := wordAt_lt d (offset + 12)
  unfold segmentHeader
  omega

section
variable (hlen : pack.data.length < 2 ^ 16)
include hlen

lemma tcpDecodeHeader_inside (hin : offset + tcpHeaderSize ≤ pack.data.length) :
    SegmentOk pack offset ∧ tcpDecodeHeader pack offset = .ok (.accepted { pack with
      transportOffset := offset
      dataOffset := (offset + segmentHeader pack.data offset) % 2 ^ 16
      srcPort := wordAt pack.data offset
      destPort := wordAt pack.data (offset + 2) }) ∨
    ¬ SegmentOk pack offset ∧ tcpDecodeHeader pack offset = .ok (.rejected (-7)) := by
  have hbound : offset + 20 ≤ pack.data.length := hin
  have hpass := not_tooShort hlen (by decide) hin
  obtain ⟨sum, hsum⟩ := checksum_zeroed (offset + 16) (pseudoSum { pack with
    data := put16 pack.data (offset + 16) 0
    transportOffset := offset } .tcp) hbound
  have hok : SegmentOk pack offset ↔ wordAt pack.data (offset + 16) = sum := by
    simp only [SegmentOk, transportChecksum, length_put16, hsum, Except.ok.injEq]
    exact eq_comm
  have hdecode : tcpDecodeHeader pack offset =
      if wordAt pack.data (offset + 16) ≠ sum then .ok (.rejected (-7))
      else .ok (.accepted { pack with
        transportOffset := offset
        dataOffset := (offset + segmentHeader pack.data offset) % 2 ^ 16
        srcPort := wordAt pack.data offset
        destPort := wordAt pack.data (offset + 2) }) := by
    rw [tcpDecodeHeader, if_neg hpass]
    simp (disch := omega) only [rewrite16_inside, rewrite32_inside, load16_inside, store16_inside,
      store16_back, ok_bind]
    have hsum' := hsum
    simp only [pseudoSum, length_put16] at hsum'
    simp only [transportChecksum, pseudoSum, length_put16, hsum', ok_bind]
    rfl
  rw [hdecode]
  by_cases hcheck : wordAt pack.data (offset + 16) = sum
  · exact Or.inl ⟨hok.mpr hcheck, if_neg (by simpa using hcheck)⟩
  · exact Or.inr ⟨fun h => hcheck (hok.mp h), if_pos hcheck⟩

lemma udpDecodeHeader_inside (hin : offset + udpHeaderSize ≤ pack.data.length) :
    (∃ error, udpDecodeHeader pack offset = .ok (.rejected error)) ∨
    udpDecodeHeader pack offset = .ok (.accepted { pack with
      transportOffset := offset
      dataOffset := (offset + udpHeaderSize) % 2 ^ 16
      srcPort := wordAt pack.data offset
      destPort := wordAt pack.data (offset + 2) }) := by
  have hbound : offset + 8 ≤ pack.data.length := hin
  have hpass := not_tooShort hlen (by decide) hin
  obtain ⟨sum, hsum⟩ := checksum_zeroed (offset + 6) (pseudoSum { pack with
    data := put16 pack.data (offset + 6) 0
    transportOffset := offset } .udp) hbound
  rw [udpDecodeHeader, if_neg hpass]
  simp (disch := omega) only [rewrite16_inside, load16_inside, store16_inside, store16_back,
    ok_bind]
  simp only [pseudoSum, length_put16] at hsum
  simp only [transportChecksum, pseudoSum, length_put16, hsum, ok_bind]
  split_ifs
  · exact Or.inl ⟨_, rfl⟩
  · exact Or.inl ⟨_, rfl⟩
  · exact Or.inr rfl

lemma icmpDecodeHeader_inside (hin : offset + icmpHeaderSize ≤ pack.data.length) :
    (∃ error, icmpDecodeHeader pack offset = .ok (.rejected error)) ∨
    icmpDecodeHeader pack offset = .ok (.accepted { pack with
      transportOffset := offset
      dataOffset := (offset + icmpHeaderSize) % 2 ^ 16 }) := by
  have hbound : offset + 8 ≤ pack.data.length := hin
  have hpass := not_tooShort hlen (by decide) hin
  obtain ⟨sum, hsum⟩ := checksum_zeroed (offset + 2) 0 hbound
  rw [icmpDecodeHeader, if_neg hpass]
  simp (disch := omega) only [rewrite16_inside, rewrite32_inside, load16_inside, store16_inside,
    store16_back, ok_bind, hsum]
  split_ifs
  · exact Or.inl ⟨_, rfl⟩
  · exact Or.inr rfl

lemma decodeHeader_beyond (hoff : offset < 2 ^ 16) (h : pack.data.length < offset) (proto : Proto)
    (depth : ℕ) : decodeHeader (depth + 1) proto pack offset = .error .outside := by
  have hpass : ∀ size, size < 2 ^ 16 → ¬ tooShort pack offset size := by
    intro size hsize
    rw [tooShort_iff hlen hoff hsize]
    omega
  cases proto with
  | ip => rw [decodeHeader, ipv4ReadHeader_beyond hlen hoff h]
  | icmp =>
    rw [decodeHeader, icmpDecodeHeader, if_neg (hpass _ (by decide)), rewrite16_outside (by omega)]
    rfl
  | udp =>
    rw [decodeHeader, udpDecodeHeader, if_neg (hpass _ (by decide)), rewrite16_outside h.le]
    rfl
  | tcp =>
    rw [decodeHeader, tcpDecodeHeader, if_neg (hpass _ (by decide)), rewrite16_outside h.le]
    rfl
end

def Proto.headerSize : Proto → ℕ
  | .ip => ipv4HeaderSize
  | .icmp => icmpHeaderSize
  | .udp => udpHeaderSize
  | .tcp => tcpHeaderSize

lemma decodeHeader_short (proto : Proto) (hlen : pack.data.length < 2 ^ 16)
    (hoff : offset ≤ pack.data.length) (hend : pack.data.length < offset + proto.headerSize)
    (depth : ℕ) : ∃ error, decodeHeader (depth + 1) proto pack offset = .ok (.rejected error) := by
  have hshort : tooShort pack offset proto.headerSize := by
    rw [tooShort_iff hlen (by omega) (by cases proto <;> decide)]
    omega
  cases proto with
  | ip => exact ⟨-1, by rw [decodeHeader, ipv4ReadHeader]; exact if_pos hshort ▸ rfl⟩
  | icmp => exact ⟨-1, by rw [decodeHeader, icmpDecodeHeader]; exact if_pos hshort⟩
  | udp => exact ⟨-5, by rw [decodeHeader, udpDecodeHeader]; exact if_pos hshort⟩
  | tcp => exact ⟨-5, by rw [decodeHeader, tcpDecodeHeader]; exact if_pos hshort⟩

structure Placed (pack : Raw) : Prop where
  transport : pack.transportOffset ≤ pack.dataOffset
  data : pack.dataOffset ≤ pack.data.length
  length : pack.data.length < 2 ^ 16
  tcp : pack.proto = some .tcp → pack.transportOffset + tcpHeaderSize ≤ pack.data.length
  icmp : pack.proto = some .icmp → pack.transportOffset + icmpHeaderSize ≤ pack.data.length

def Fine : Except Fault (Parsed Raw) → Prop
  | .error e => e = .unfinished
  | .ok (.rejected _) => True
  | .ok (.accepted pack) => Placed pack

lemma fine_transport (proto : Proto) (hlen : pack.data.length < 2 ^ 16)
    (hoff : offset ≤ pack.data.length)
    (h : offset + proto.headerSize ≤ pack.data.length → Fine (decodeHeader 1 proto pack offset)) :
    Fine (decodeHeader 1 proto pack offset) := by
  by_cases hin : offset + proto.headerSize ≤ pack.data.length
  · exact h hin
  · obtain ⟨error, heq⟩ := decodeHeader_short proto hlen hoff (not_le.mp hin) 0
    rw [heq]
    trivial

section
variable (hlen : pack.data.length < 2 ^ 16) (hoff : offset ≤ pack.data.length)
include hlen hoff

lemma tcpDecodeHeader_fine (hproto : pack.proto = some .tcp)
    (hsegment : offset + tcpHeaderSize ≤ pack.data.length → SegmentOk pack offset →
      offset + segmentHeader pack.data offset ≤ pack.data.length) :
    Fine (tcpDecodeHeader pack offset) := by
  refine fine_transport .tcp hlen hoff fun hin => ?_
  rw [decodeHeader]
  rcases tcpDecodeHeader_inside hlen hin with ⟨hok, heq⟩ | ⟨-, heq⟩
  · have hfits := hsegment hin hok
    have hmod := Nat.mod_eq_of_lt (show offset + segmentHeader pack.data offset < 2 ^ 16 by omega)
    rw [heq, hmod]
    exact ⟨Nat.le_add_right _ _, hfits, hlen, fun _ => hin, fun h => by simp [hproto] at h⟩
  · rw [heq]
    trivial

lemma udpDecodeHeader_fine (hproto : pack.proto = some .udp) :
    Fine (udpDecodeHeader pack offset) := by
  refine fine_transport .udp hlen hoff fun hin => ?_
  rw [decodeHeader]
  rcases udpDecodeHeader_inside hlen hin with ⟨error, heq⟩ | heq
  · rw [heq]
    trivial
  · rw [heq, Nat.mod_eq_of_lt (show offset + udpHeaderSize < 2 ^ 16 from hin.trans_lt hlen)]
    exact ⟨Nat.le_add_right _ _, hin, hlen, fun h => by simp [hproto] at h,
      fun h => by simp [hproto] at h⟩

lemma icmpDecodeHeader_fine (hproto : pack.proto = some .icmp) :
    Fine (icmpDecodeHeader pack offset) := by
  refine fine_transport .icmp hlen hoff fun hin => ?_
  rw [decodeHeader]
  rcases icmpDecodeHeader_inside hlen hin with ⟨error, heq⟩ | heq
  · rw [heq]
    trivial
  · rw [heq, Nat.mod_eq_of_lt (show offset + icmpHeaderSize < 2 ^ 16 from hin.trans_lt hlen)]
    exact ⟨Nat.le_add_right _ _, hin, hlen, fun h => by simp [hproto] at h, fun _ => hin⟩
end

inductive Reached (d : List Byte) : ℕ → Prop
  | first : Reached d 0
  | nested {offset : ℕ} (h : Reached d offset) (hok : HeaderOk d offset)
      (hip : protocolAt d offset = some .ip) : Reached d (nextOffset d offset)

/-- The options of every header end inside the packet, and so does the header of a segment. -/
def Contained (d : List Byte) : Prop :=
  ∀ offset next, Reached d offset → HeaderOk d offset → protocolAt d offset = some next →
    nextOffset d offset ≤ d.length ∧
    (next = .tcp → nextOffset d offset + tcpHeaderSize ≤ d.length →
      SegmentOk (opened ⟨d, none, 0, 0, 0, 0, 0, 0, 0⟩ offset .tcp) (nextOffset d offset) →
      nextOffset d offset + segmentHeader d (nextOffset d offset) ≤ d.length)

lemma nextOffset_lt (d : List Byte) (offset : ℕ) : nextOffset d offset < 2 ^ 16 :=
  Nat.mod_lt _ (by decide)

lemma decodeHeader_nested (hlen : pack.data.length < 2 ^ 16) (hok : HeaderOk pack.data offset)
    {next : Proto} (hnext : protocolAt pack.data offset = some next) (depth : ℕ) :
    decodeHeader (depth + 1) .ip pack offset =
      decodeHeader depth next (opened pack offset next) (nextOffset pack.data offset) := by
  rcases ipv4ReadHeader_inside hlen hok.inside with ⟨next', -, hnext', heq⟩ | ⟨hno, -⟩
  · rw [hnext, Option.some.injEq] at hnext'
    subst hnext'
    rw [decodeHeader, heq]
    rfl
  · exact absurd hnext (hno next hok)

lemma decodeHeader_fine (hlen : d.length < 2 ^ 16) (hd : Contained d) (depth : ℕ)
    (hpack : pack.data = d) (hreached : Reached d offset) (hoff : offset ≤ d.length) :
    Fine (decodeHeader depth .ip pack offset) := by
  subst hpack
  induction depth generalizing pack offset with
  | zero => rfl
  | succ depth ih =>
    by_cases hin : offset + ipv4HeaderSize ≤ pack.data.length
    · rcases ipv4ReadHeader_inside hlen hin with ⟨next, hok, hnext, -⟩ | ⟨-, error, heq⟩
      · rw [decodeHeader_nested hlen hok hnext]
        obtain ⟨hplace, hsegment⟩ := hd offset next hreached hok hnext
        cases depth with
        | zero => rfl
        | succ depth =>
          cases next with
          | ip => exact ih hlen hd (.nested hreached hok hnext) hplace
          | icmp => exact icmpDecodeHeader_fine hlen hplace rfl
          | udp => exact udpDecodeHeader_fine hlen hplace rfl
          | tcp => exact tcpDecodeHeader_fine hlen hplace rfl (hsegment rfl)
      · rw [decodeHeader, heq]
        trivial
    · obtain ⟨error, heq⟩ := decodeHeader_short .ip hlen hoff (not_le.mp hin) depth
      rw [heq]
      trivial

lemma Reached.decoded (hlen : d.length < 2 ^ 16) (h : Reached d offset) (depth : ℕ) :
    ∃ total pack, pack.data = d ∧ decodeHeader total .ip ⟨d, none, 0, 0, 0, 0, 0, 0, 0⟩ 0 =
      decodeHeader depth .ip pack offset := by
  induction h generalizing depth with
  | first => exact ⟨depth, _, rfl, rfl⟩
  | nested _ hok hip ih =>
    obtain ⟨total, pack, hpack, heq⟩ := ih (depth + 1)
    subst hpack
    rw [decodeHeader_nested hlen hok hip] at heq
    exact ⟨total, opened pack _ .ip, rfl, heq⟩

lemma deliverEnd_le (tep : Endpoint) {seg : Packet} (hlen : seg.data.length < 2 ^ 16) :
    deliverEnd tep seg ≤ seg.data.length := by
  have hword : toUnsigned (seg.data.length : ℤ) = seg.data.length := by
    rw [toUnsigned_of_mem (by omega) (by omega)]
    simp
  simp only [deliverEnd, hword]
  split_ifs with hearly hnew
  · omega
  · have hend : add32 seg.seqnum seg.data.length ≤ seg.seqnum + seg.data.length := by
      unfold add32
      exact Nat.mod_le _ _
    have hrx : tep.rxLastSeq < 2 ^ 32 := hnew.trans (by
      unfold add32
      exact Nat.mod_lt _ (by decide))
    rw [sub32_of_le (by omega) hrx]
    have hle : toShort ((seg.data.length : ℤ) - (tep.rxLastSeq - seg.seqnum : ℕ)) ≤
        (seg.data.length : ℤ) - (tep.rxLastSeq - seg.seqnum : ℕ) := by
      unfold toShort
      omega
    omega
  · omega

lemma loadSegment_inside (hin : pack.transportOffset + tcpHeaderSize ≤ pack.data.length) :
    loadSegment pack = .ok ⟨wordAt pack.data (pack.transportOffset + 12) % 4096,
      longAt pack.data (pack.transportOffset + 4), longAt pack.data (pack.transportOffset + 8),
      pack.data.drop pack.dataOffset⟩ := by
  have hbound : pack.transportOffset + 20 ≤ pack.data.length := hin
  rw [loadSegment, load32_inside (by omega), ok_bind, load32_inside (by omega), ok_bind,
    load16_inside (by omega), ok_bind]
  rfl

lemma icmpForward_inside (hin : pack.transportOffset + icmpHeaderSize ≤ pack.data.length) :
    ∃ result, icmpForward pack = .ok result := by
  have hbound : pack.transportOffset + 8 ≤ pack.data.length := hin
  rw [icmpForward, load8_inside (by omega), ok_bind, load8_inside (by omega), ok_bind]
  dsimp only
  split_ifs
  · exact ⟨_, rfl⟩
  · exact ⟨_, rfl⟩
  · rw [store8_inside (by omega), ok_bind, store8_inside (by simpa using by omega), ok_bind,
      store16_inside (by simpa using by omega), ok_bind]
    have hlen : (pack.transportOffset : ℤ) + ((pack.data.length - pack.transportOffset : ℕ) : ℤ) ≤
        (put16 ((pack.data.set pack.transportOffset (UInt8.ofNat 0)).set (pack.transportOffset + 1)
          (UInt8.ofNat 0)) (pack.transportOffset + 2) 0).length := by
      simp only [length_put16, List.length_set]
      omega
    obtain ⟨sum, hsum⟩ := checksum_inside 0 (by omega) hlen
    rw [hsum, ok_bind, store16_inside (by simpa using by omega), ok_bind,
      copy_inside (by simpa using by omega)]
    exact ⟨_, rfl⟩

lemma Placed.forward (h : Placed pack) (endpoint : Option Session) (p : ℕ) :
    forwardPacket endpoint p pack ≠ .error .outside := by
  cases hproto : pack.proto with
  | none => simp [forwardPacket, hproto]
  | some proto =>
    cases proto with
    | ip => simp [forwardPacket, hproto]
    | udp => cases endpoint <;> simp [forwardPacket, hproto]
    | icmp =>
      obtain ⟨result, hresult⟩ := icmpForward_inside (h.icmp hproto)
      simp [forwardPacket, hproto, hresult]
    | tcp =>
      cases endpoint with
      | none => simp [forwardPacket, hproto]
      | some s =>
        simp only [forwardPacket, hproto, tcpForward, loadSegment_inside (h.tcp hproto), ok_bind]
        split_ifs <;> simp

lemma Placed.deliver (h : Placed pack) (hproto : pack.proto = some .tcp) {seg : Packet}
    (hseg : loadSegment pack = .ok seg) (tep : Endpoint) :
    pack.dataOffset + deliverEnd tep seg ≤ pack.data.length := by
  rw [loadSegment_inside (h.tcp hproto), Except.ok.injEq] at hseg
  have hdata := h.data
  have hlen := h.length
  have hpayload : seg.data.length = pack.data.length - pack.dataOffset := by simp [← hseg]
  have hle := deliverEnd_le tep (show seg.data.length < 2 ^ 16 by omega)
  omega

structure Inside (r : Received) : Prop where
  decode : ∀ depth, decodeHeader depth .ip r.raw 0 ≠ .error .outside
  offsets : ∀ depth pack, decodeHeader depth .ip r.raw 0 = .ok (.accepted pack) →
    pack.transportOffset ≤ pack.dataOffset ∧ pack.dataOffset ≤ pack.data.length
  forward : ∀ depth pack, decodeHeader depth .ip r.raw 0 = .ok (.accepted pack) →
    ∀ endpoint p, forwardPacket endpoint p pack ≠ .error .outside
  deliver : ∀ depth pack seg, decodeHeader depth .ip r.raw 0 = .ok (.accepted pack) →
    pack.proto = some .tcp → loadSegment pack = .ok seg →
    ∀ tep, pack.dataOffset + deliverEnd tep seg ≤ pack.data.length

/-- Decoding and forwarding stay inside the packet exactly when its headers point inside it. -/
theorem decode_inside_iff (r : Received) : Inside r ↔ Contained r.data := by
  constructor
  · intro hinside offset next hreached hok hnext
    obtain ⟨total, pack, hpack, heq⟩ := hreached.decoded r.short 2
    have hlen : pack.data.length < 2 ^ 16 := hpack ▸ r.short
    rw [← hpack] at hok hnext ⊢
    rw [decodeHeader_nested hlen hok hnext] at heq
    have hplace : nextOffset pack.data offset ≤ pack.data.length := by
      by_contra hout
      have hfault : decodeHeader 1 next (opened pack offset next) (nextOffset pack.data offset) =
          .error .outside :=
        decodeHeader_beyond (show (opened pack offset next).data.length < 2 ^ 16 from hlen)
          (nextOffset_lt _ _) (not_le.mp hout) next 0
      exact hinside.decode total (heq.trans hfault)
    refine ⟨hplace, ?_⟩
    rintro rfl hin hsegment
    rcases (tcpDecodeHeader_inside hlen hin : SegmentOk (opened pack offset .tcp) _ ∧ _ ∨ _) with
      ⟨-, haccept⟩ | ⟨hbad, -⟩
    · obtain ⟨horder, hend⟩ := hinside.offsets total _ (heq.trans haccept)
      simp only [opened] at horder hend
      have hsmall := segmentHeader_le pack.data (nextOffset pack.data offset)
      omega
    · exact absurd hsegment hbad
  · intro hcontained
    have hfine : ∀ depth, Fine (decodeHeader depth .ip r.raw 0) := fun depth =>
      decodeHeader_fine r.short hcontained depth rfl .first (Nat.zero_le _)
    have hplaced : ∀ depth pack, decodeHeader depth .ip r.raw 0 = .ok (.accepted pack) →
        Placed pack := by
      intro depth pack heq
      have := hfine depth
      rwa [heq] at this
    refine ⟨fun depth heq => ?_, fun depth pack heq => ?_, fun depth pack heq => ?_, ?_⟩
    · have := hfine depth
      rw [heq] at this
      cases this
    · exact ⟨(hplaced depth pack heq).transport, (hplaced depth pack heq).data⟩
    · exact (hplaced depth pack heq).forward
    · intro depth pack seg heq hproto hseg tep
      exact (hplaced depth pack heq).deliver hproto hseg tep

def truncatedPacket : Received :=
  ⟨[0x49, 0, 0, 20, 0, 0, 0, 0, 64, 6, 0x62, 0xE2, 10, 0, 0, 1, 10, 0, 0, 2], by decide⟩

/-- The options of a header end behind the packet. -/
theorem truncated_packet_overrun :
    decodeHeader 2 .ip truncatedPacket.raw 0 = .error .outside ∧ ¬ Inside truncatedPacket := by
  have hok : HeaderOk truncatedPacket.data 0 := ⟨by decide, rfl, by decide, rfl⟩
  have hnested : decodeHeader 2 .ip truncatedPacket.raw 0 =
      decodeHeader 1 .tcp (opened truncatedPacket.raw 0 .tcp) 36 :=
    decodeHeader_nested truncatedPacket.short hok rfl 1
  have hfault := hnested.trans
    (decodeHeader_beyond truncatedPacket.short (by decide) (by decide) .tcp 0)
  exact ⟨hfault, fun h => h.decode 2 hfault⟩

end Gloworm.PacketDecode
