-- SUMMARY: The receiving side of the legacy net layer, and the arrivals of which it hands on every packet.
import ImProject.Library.Framing
import ImProject.Library.Segments

/-!
# Receiving packets

A packet is sent behind its length, in four bytes. `recvData` gets the length with
one call and the packet with as many as it takes, and hands the packet to the
mediator. A call that gets a part of the length only leaves the other bytes of
`RecvLen` as they are, which is zero: the loop has counted it down.
-/

open Library

namespace Net

def MAX_PACK_LEN : Int := 10 * 1024 * 1024

/-- The bytes of an `int` in memory; the host is little-endian. -/
def memory (v : Int) : Bytes := (Bytes.bigEndian 4 (v % 2 ^ 32).toNat).reverse

/-- `ntohl` of the word that has these bytes in memory, as an `int`. -/
def ntohl (mem : Bytes) : Int :=
  if Bytes.value mem < 2 ^ 31 then Bytes.value mem else Bytes.value mem - 2 ^ 32

/-- `RecvLen` after a call that has got these bytes of it, from what it was before. -/
def recvHeader (recvLen : Int) (got : Bytes) : Int := ntohl (got ++ (memory recvLen).drop got.length)

/-- The loop over the body, for so many calls: the pack, what is left of `RecvLen`, and what is
still to arrive. -/
def recvBody : Nat → Int → Bytes → Segments → Bytes × Int × Segments
  | 0, recvLen, pack, s => (pack, recvLen, s)
  | calls + 1, recvLen, pack, s =>
    if 0 < recvLen then
      match s.recv recvLen.toNat with
      | some (got, rest) => recvBody calls (recvLen - got.length) (pack ++ got) rest
      | none => (pack, recvLen, s)
    else (pack, recvLen, s)

/-- Each call gets something, so the loop ends with the body, or with the stream. -/
theorem recvBody_eq {calls : Nat} {recvLen : Int} (h : 0 ≤ recvLen) (hcalls : recvLen.toNat ≤ calls)
    (pack : Bytes) (s : Segments) :
    recvBody calls recvLen pack s =
      (pack ++ s.stream.take recvLen.toNat, recvLen - (s.stream.take recvLen.toNat).length,
        s.drop recvLen.toNat) := by
  induction calls generalizing recvLen pack s with
  | zero =>
    obtain rfl : recvLen = 0 := by omega
    simp [recvBody]
  | succ calls ih =>
    rw [recvBody]
    rcases h.eq_or_lt with rfl | hpos
    · simp
    rw [if_pos hpos]
    by_cases hnil : s.stream = []
    · rw [Segments.recv_eq_none_iff.mpr hnil]
      simp [hnil, Segments.drop_of_stream_nil hnil]
    have hgot := Segments.length_front_pos (n := recvLen.toNat) (by omega) hnil
    have hle := s.length_front_le recvLen.toNat
    have hleft : (recvLen - ((s.front recvLen.toNat).length : Int)).toNat =
        recvLen.toNat - (s.front recvLen.toNat).length := by omega
    have htake : s.stream.take recvLen.toNat = s.front recvLen.toNat ++
        (s.stream.drop (s.front recvLen.toNat).length).take
          (recvLen.toNat - (s.front recvLen.toNat).length) := by
      conv_lhs => rw [← s.front_append_drop recvLen.toNat, List.take_append, List.take_of_length_le hle]
    rw [Segments.recv_of_ne_nil hnil]
    dsimp only
    rw [ih (by omega) (by omega), hleft, Segments.stream_drop, Segments.drop_drop, htake, List.append_assoc,
      List.length_append, Nat.add_sub_cancel' hle]
    simp only [Prod.mk.injEq, true_and, and_true]
    omega

/-- The loop over the packets, with what is in `RecvLen` when it is entered: the packets that
are handed on. A round begins each time `m_bRunning` is found to be set. -/
def recvPackets : Nat → Int → Segments → List Bytes
  | 0, _, _ => []
  | rounds + 1, recvLen, s =>
    match s.recv 4 with
    | none => []
    | some (got, rest) =>
      let recvLen := recvHeader recvLen got
      if recvLen ≤ 0 ∨ MAX_PACK_LEN < recvLen then []
      else
        let (pack, recvLen, rest) := recvBody recvLen.toNat recvLen [] rest
        if recvLen = 0 then pack :: recvPackets rounds recvLen rest else recvPackets rounds recvLen rest

/-- A length that a packet may have. -/
def Legal (n : Nat) : Prop := 0 < n ∧ n ≤ 10 * 1024 * 1024

instance (n : Nat) : Decidable (Legal n) := inferInstanceAs (Decidable (_ ∧ _))

/-- The length that is read off the first call, where the bytes it has not got are taken to be zero. -/
def announced (s : Segments) : Nat := Bytes.value (s.front 4 ++ List.replicate (4 - (s.front 4).length) 0)

/-- A packet of this length is there. -/
def Announces (s : Segments) : Prop :=
  Legal (announced s) ∧ (s.front 4).length + announced s ≤ s.stream.length

instance (s : Segments) : Decidable (Announces s) := inferInstanceAs (Decidable (_ ∧ _))

theorem memory_zero_drop (k : Nat) : (memory 0).drop k = List.replicate (4 - k) 0 := by
  rw [show memory 0 = List.replicate 4 0 from by decide, List.drop_replicate]

theorem ntohl_legal_iff {mem : Bytes} (h : mem.length = 4) :
    ¬ (ntohl mem ≤ 0 ∨ MAX_PACK_LEN < ntohl mem) ↔ Legal (Bytes.value mem) := by
  have hlt := Bytes.value_lt mem
  rw [h] at hlt
  unfold ntohl Legal MAX_PACK_LEN
  split <;> omega

theorem ntohl_of_legal {mem : Bytes} (h : Legal (Bytes.value mem)) : ntohl mem = Bytes.value mem := by
  unfold Legal at h
  rw [ntohl, if_pos (by omega)]

theorem recvPackets_of_stream_nil {s : Segments} (h : s.stream = []) (rounds : Nat) (recvLen : Int) :
    recvPackets rounds recvLen s = [] := by
  cases rounds with
  | zero => rfl
  | succ rounds => rw [recvPackets, Segments.recv_eq_none_iff.mpr h]

/-- The first call, with zeros for what it has not got, fills the header. -/
theorem length_filled (s : Segments) :
    (s.front 4 ++ List.replicate (4 - (s.front 4).length) (0 : UInt8)).length = 4 := by
  have hle := s.length_front_le 4
  rw [List.length_append, List.length_replicate]
  omega

/-- One round of the loop: a packet that is announced is handed on, and the loop goes on behind it. -/
theorem recvPackets_succ (rounds : Nat) (s : Segments) :
    recvPackets (rounds + 1) 0 s =
      if Announces s then
        (s.stream.drop (s.front 4).length).take (announced s) ::
          recvPackets rounds 0 (s.drop ((s.front 4).length + announced s))
      else [] := by
  by_cases hnil : s.stream = []
  · have hnone : ¬ Announces s := by
      rintro ⟨⟨hpos, -⟩, hle⟩
      rw [hnil, List.length_nil] at hle
      omega
    rw [recvPackets_of_stream_nil hnil, if_neg hnone]
  have hlegal := ntohl_legal_iff (length_filled s)
  rw [recvPackets, Segments.recv_of_ne_nil hnil]
  simp only [recvHeader, memory_zero_drop]
  split
  · rename_i hillegal
    rw [if_neg]
    exact fun h => hlegal.mpr h.1 hillegal
  rename_i hok
  have hval : ntohl _ = (announced s : Int) := ntohl_of_legal (hlegal.mp hok)
  rw [hval, recvBody_eq (Int.natCast_nonneg _) le_rfl, Int.toNat_natCast]
  simp only [Segments.stream_drop, List.nil_append, Segments.drop_drop, List.length_take, List.length_drop]
  by_cases hthere : (s.front 4).length + announced s ≤ s.stream.length
  · have hleft : (announced s : Int) - (min (announced s) (s.stream.length - (s.front 4).length) : Nat) = 0 := by
      omega
    rw [if_pos hleft, hleft, if_pos ⟨hlegal.mp hok, hthere⟩]
  · -- the stream has ended within the packet, and so does the loop
    have hover : (s.drop ((s.front 4).length + announced s)).stream = [] := by
      rw [Segments.stream_drop, List.drop_eq_nil_iff]
      omega
    have hle := (s.front_prefix 4).length_le
    rw [if_neg (by omega), if_neg fun h => hthere h.2, recvPackets_of_stream_nil hover]

/-- The packets that the loop hands on. There are no more rounds than bytes. -/
def received (s : Segments) : List Bytes := recvPackets (s.stream.length + 1) 0 s

/-- The loop ends by itself: it makes no difference how many more rounds there are. -/
theorem recvPackets_eq_received {rounds : Nat} {s : Segments} (h : s.stream.length < rounds) :
    recvPackets rounds 0 s = received s := by
  have hall : ∀ n m (s : Segments), s.stream.length < n → s.stream.length < m →
      recvPackets n 0 s = recvPackets m 0 s := by
    intro n
    induction n with
    | zero => exact fun m s hn => absurd hn (Nat.not_lt_zero _)
    | succ n ih =>
      intro m s hn hm
      obtain ⟨m, rfl⟩ := Nat.exists_eq_succ_of_ne_zero (Nat.ne_zero_of_lt hm)
      rw [Nat.succ_eq_add_one, recvPackets_succ, recvPackets_succ]
      split
      · rename_i hannounced
        have hpos := hannounced.1.1
        have hle := hannounced.2
        rw [ih m _ (by rw [Segments.stream_drop, List.length_drop]; omega)
          (by rw [Segments.stream_drop, List.length_drop]; omega)]
      · rfl
  exact hall _ _ s h (Nat.lt_succ_self _)

theorem received_of_announces {s : Segments} (h : Announces s) :
    received s = (s.stream.drop (s.front 4).length).take (announced s) ::
      received (s.drop ((s.front 4).length + announced s)) := by
  have hpos := h.1.1
  have hle := h.2
  rw [received, recvPackets_succ, if_pos h, recvPackets_eq_received]
  rw [Segments.stream_drop, List.length_drop]
  omega

theorem received_of_not_announces {s : Segments} (h : ¬ Announces s) : received s = [] := by
  rw [received, recvPackets_succ, if_neg h]

/-- A loop that is stopped has handed on the first of these packets. -/
theorem recvPackets_prefix (rounds : Nat) (s : Segments) : recvPackets rounds 0 s <+: received s := by
  induction rounds generalizing s with
  | zero => exact List.nil_prefix
  | succ rounds ih =>
    rw [recvPackets_succ]
    split
    · rename_i hannounces
      rw [received_of_announces hannounces]
      exact List.prefix_cons_inj _ |>.mpr (ih _)
    · exact List.nil_prefix

/-- The first packet that is handed on. -/
theorem received_eq_cons {s : Segments} {p : Bytes} {ps : List Bytes} (h : received s = p :: ps) :
    announced s = p.length ∧ (s.stream.drop (s.front 4).length).take p.length = p ∧
      received (s.drop ((s.front 4).length + p.length)) = ps := by
  by_cases hannounces : Announces s
  · have hthere := hannounces.2
    rw [received_of_announces hannounces, List.cons.injEq] at h
    obtain ⟨hfirst, hnext⟩ := h
    have hannounced : announced s = p.length := by
      rw [← hfirst, List.length_take, List.length_drop]
      omega
    rw [hannounced] at hfirst hnext
    exact ⟨hannounced, hfirst, hnext⟩
  · rw [received_of_not_announces hannounces] at h
    cases h

/-! ## Calls of the mediator -/

inductive MediatorCall where
  | transmitData (pack : Bytes)
  | notifyDisconnect
  deriving DecidableEq

/-- The packets among the calls. -/
def handed (calls : List MediatorCall) : List Bytes :=
  calls.filterMap fun
    | .transmitData pack => some pack
    | .notifyDisconnect => none

/-- The thread of a connection, which closes the socket if it still owns it. -/
def TCPServer.recvData (owned : Bool) (s : Segments) : List MediatorCall :=
  (received s).map .transmitData ++ if owned then [.notifyDisconnect] else []

def TCPClient.recvData (s : Segments) : List MediatorCall := (received s).map .transmitData

theorem handed_map (packs : List Bytes) : handed (packs.map .transmitData) = packs := by
  simp [handed, List.filterMap_map]

theorem TCPServer.handed_recvData (owned : Bool) (s : Segments) : handed (recvData owned s) = received s := by
  rw [recvData, handed, List.filterMap_append]
  cases owned <;> exact (List.append_nil _).trans (handed_map _)

theorem TCPClient.handed_recvData (s : Segments) : handed (recvData s) = received s := handed_map _

/-! ## The packets of a stream -/

/-- The packets of the stream, up to the first illegal length or the end. -/
def packets (s : Bytes) : List Bytes := ((prefixedReader Legal).readAll s).1

theorem Legal.lt {n : Nat} (h : Legal n) : n < 2 ^ 32 := lt_of_le_of_lt h.2 (by norm_num)

/-! ## Headers that arrive in parts -/

theorem announced_eq (s : Segments) :
    announced s = Bytes.value (s.front 4) * 256 ^ (4 - (s.front 4).length) := by
  rw [announced, Bytes.value_append, Bytes.value_replicate_zero, List.length_replicate, Nat.add_zero]

/-- What the first call gets is part of the header, and the rest of the header is what it takes for zeros. -/
theorem value_take_eq {s : Segments} (h : 4 ≤ s.stream.length) :
    Bytes.value (s.stream.take 4) =
      announced s + Bytes.value ((s.stream.take 4).drop (s.front 4).length) := by
  have hle := s.length_front_le 4
  have hfront : (s.stream.take 4).take (s.front 4).length = s.front 4 := by
    rw [List.take_take, Nat.min_eq_left hle, ← Segments.front_eq_take]
  conv_lhs => rw [← List.take_append_drop (s.front 4).length (s.stream.take 4)]
  rw [hfront, Bytes.value_append, announced_eq, List.length_drop, List.length_take, Nat.min_eq_left h]

section Frame

variable {s : Segments} {p rest : Bytes} {ps : List Bytes}

theorem header_eq (hs : s.stream = Bytes.lengthPrefixed p ++ rest) :
    s.stream.take 4 = Bytes.bigEndian 4 p.length := by
  rw [hs, Bytes.lengthPrefixed, List.append_assoc, List.take_left' (Bytes.length_bigEndian 4 _)]

theorem length_frame (hs : s.stream = Bytes.lengthPrefixed p ++ rest) :
    s.stream.length = 4 + p.length + rest.length := by
  rw [hs, List.length_append, length_lengthPrefixed]

/-- A header that arrives whole is read as it is. -/
theorem received_of_whole (hs : s.stream = Bytes.lengthPrefixed p ++ rest) (hp : Legal p.length)
    (hwhole : 4 ≤ (s.front 4).length) : received s = p :: received (s.drop (4 + p.length)) := by
  have hlen := length_frame hs
  have hfour : (s.front 4).length = 4 := le_antisymm (s.length_front_le 4) hwhole
  have hannounced : announced s = p.length := by
    rw [announced_eq, hfour, Segments.front_eq_take, hfour, header_eq hs, value_header hp.lt, Nat.sub_self,
      Nat.pow_zero, Nat.mul_one]
  have hthere : Announces s := ⟨hannounced ▸ hp, by omega⟩
  rw [received_of_announces hthere, hannounced, hfour]
  congr 1
  rw [hs, Bytes.lengthPrefixed, List.append_assoc, List.drop_left' (Bytes.length_bigEndian 4 _), List.take_left]

/-- The packet is the last one and consists of zeros, and so does the part of its header that
is missing: the loop then hands on the packet shifted by this part. -/
structure Shifted (p : Bytes) (ps : List Bytes) (s : Segments) : Prop where
  short : (s.front 4).length < 4
  last : ps = []
  zeros : p = List.replicate p.length 0
  header : 256 ^ (4 - (s.front 4).length) ∣ p.length
  quiet : ¬ Announces (s.drop ((s.front 4).length + p.length))

/-- The first call at each header gets all of it, and what it gets where no packet follows
announces none. -/
def HeadersArrive : List Bytes → Segments → Prop
  | [], s => ¬ Announces s
  | p :: ps, s => (4 ≤ (s.front 4).length ∧ HeadersArrive ps (s.drop (4 + p.length))) ∨ Shifted p ps s

/-- A short header announces the packet if the rest of it is zero. -/
theorem announced_eq_iff (hs : s.stream = Bytes.lengthPrefixed p ++ rest) (hp : Legal p.length) :
    announced s = p.length ↔ 256 ^ (4 - (s.front 4).length) ∣ p.length := by
  have hlen := length_frame hs
  have hsum := value_take_eq (s := s) (by omega)
  have hlt := Bytes.value_lt ((s.stream.take 4).drop (s.front 4).length)
  rw [List.length_drop, List.length_take, Nat.min_eq_left (by omega)] at hlt
  rw [header_eq hs, value_header hp.lt] at hsum
  rw [header_eq hs] at hlt
  constructor
  · intro h
    rw [← h, announced_eq]
    exact Dvd.intro_left _ rfl
  · intro hdvd
    have hrest : 256 ^ (4 - (s.front 4).length) ∣
        Bytes.value ((Bytes.bigEndian 4 p.length).drop (s.front 4).length) := by
      refine (Nat.dvd_add_right (announced_eq s ▸ Dvd.intro_left _ rfl)).mp ?_
      rwa [← hsum]
    rw [Nat.eq_zero_of_dvd_of_lt hrest hlt] at hsum
    omega

/-- Then the stream goes on with as many zeros as are missing, the packet, and the rest. -/
theorem drop_front_of_announced (hs : s.stream = Bytes.lengthPrefixed p ++ rest) (hp : Legal p.length)
    (h : announced s = p.length) :
    s.stream.drop (s.front 4).length = List.replicate (4 - (s.front 4).length) 0 ++ (p ++ rest) := by
  have hlen := length_frame hs
  have hle := s.length_front_le 4
  have hsum := value_take_eq (s := s) (by omega)
  rw [header_eq hs, value_header hp.lt, h] at hsum
  have hmissing : Bytes.value ((Bytes.bigEndian 4 p.length).drop (s.front 4).length) = 0 := by omega
  have hzero := Bytes.eq_replicate_of_value_eq_zero hmissing
  rw [List.length_drop, Bytes.length_bigEndian] at hzero
  rw [hs, Bytes.lengthPrefixed, List.append_assoc, List.drop_append_of_le_length (by simpa using hle), hzero]

/-- Behind zeros no packet is announced that is as long as the one that is there. -/
theorem announced_ne_of_zeros {d : Nat} (hd : 0 < d) (hd4 : d ≤ 4) (hp : Legal p.length)
    (hs : s.stream = List.replicate d 0 ++ (Bytes.lengthPrefixed p ++ rest)) : announced s ≠ p.length := by
  have hlen : 4 ≤ s.stream.length := by
    rw [hs, Bytes.lengthPrefixed]
    simp
    omega
  have htake : s.stream.take 4 = List.replicate d 0 ++ (Bytes.bigEndian 4 p.length).take (4 - d) := by
    rw [hs, List.take_append, List.length_replicate, Bytes.lengthPrefixed, List.append_assoc,
      List.take_of_length_le (by simpa using hd4), List.take_append_of_le_length (by simp)]
  have hheader := value_header hp.lt
  rw [← List.take_append_drop (4 - d) (Bytes.bigEndian 4 p.length), Bytes.value_append, List.length_drop,
    Bytes.length_bigEndian, Nat.sub_sub_self hd4] at hheader
  have hsum := value_take_eq hlen
  rw [htake, Bytes.value_append, Bytes.value_replicate_zero, Nat.zero_mul, Nat.zero_add] at hsum
  have hpow : 256 ^ 1 ≤ 256 ^ d := Nat.pow_le_pow_right (by norm_num) hd
  have hmul := Nat.mul_le_mul_left (Bytes.value ((Bytes.bigEndian 4 p.length).take (4 - d))) hpow
  have hpos := hp.1
  omega

/-- So the packet behind the zeros is not the first that is handed on. -/
theorem received_ne_of_zeros {d : Nat} (hd : 0 < d) (hd4 : d ≤ 4) (hp : Legal p.length)
    (hs : s.stream = List.replicate d 0 ++ (Bytes.lengthPrefixed p ++ rest)) : received s ≠ p :: ps := by
  intro h
  exact announced_ne_of_zeros hd hd4 hp hs (received_eq_cons h).1

theorem received_of_shifted (hs : s.stream = Bytes.lengthPrefixed p ++ rest) (hp : Legal p.length)
    (h : Shifted p ps s) : received s = p :: ps := by
  have hlen := length_frame hs
  have hshort := h.short
  have hannounced := (announced_eq_iff hs hp).mpr h.header
  have hthere : Announces s := ⟨hannounced ▸ hp, by omega⟩
  rw [received_of_announces hthere, hannounced, received_of_not_announces h.quiet, h.last,
    drop_front_of_announced hs hp hannounced, Bytes.zeros_append_comm _ h.zeros, List.take_left]

/-- If the packet is handed on though its header was cut, then what follows is read with
the missing zeros in front of it. -/
theorem shifted_of_received (hs : s.stream = Bytes.lengthPrefixed p ++ rest) (hp : Legal p.length)
    (hshort : (s.front 4).length < 4) (hps : packets rest = ps) (h : received s = p :: ps) : Shifted p ps s := by
  have hd : 0 < 4 - (s.front 4).length := by omega
  obtain ⟨hannounced, hfirst, hnext⟩ := received_eq_cons h
  have hdrop := drop_front_of_announced hs hp hannounced
  have hfront : p <+: List.replicate (4 - (s.front 4).length) 0 ++ (p ++ rest) := by
    rw [← hdrop, List.prefix_iff_eq_take, hfirst]
  have hzeros := Bytes.eq_replicate_of_prefix hd hfront
  have hbehind : (s.drop ((s.front 4).length + p.length)).stream =
      List.replicate (4 - (s.front 4).length) 0 ++ rest := by
    rw [Segments.stream_drop, ← List.drop_drop, hdrop, Bytes.zeros_append_comm _ hzeros, List.drop_left]
  have hlast : ps = [] := by
    cases ps with
    | nil => rfl
    | cons q qs =>
      obtain ⟨rest', hq, rfl, -⟩ := readAll_prefixed_cons hps
      exact absurd hnext (received_ne_of_zeros hd (by omega) hq hbehind)
  subst hlast
  refine ⟨hshort, rfl, hzeros, (announced_eq_iff hs hp).mp hannounced, fun hmore => ?_⟩
  rw [received_of_announces hmore] at hnext
  cases hnext

end Frame

/-- What is handed on are the packets of the stream just when the headers arrive. -/
theorem received_eq_packets_iff {ps : List Bytes} {s : Segments} (h : packets s.stream = ps) :
    received s = ps ↔ HeadersArrive ps s := by
  induction ps generalizing s with
  | nil =>
    rw [HeadersArrive]
    by_cases hannounces : Announces s
    · simp [received_of_announces hannounces, hannounces]
    · simp [received_of_not_announces hannounces, hannounces]
  | cons p ps ih =>
    obtain ⟨rest, hp, hs, hps⟩ := readAll_prefixed_cons h
    have hrest : (s.drop (4 + p.length)).stream = rest := by
      rw [Segments.stream_drop, hs]
      exact List.drop_left' (length_lengthPrefixed p)
    rw [HeadersArrive]
    by_cases hwhole : 4 ≤ (s.front 4).length
    · have hnone : ¬ Shifted p ps s := fun hshifted => hwhole.not_gt hshifted.short
      rw [received_of_whole hs hp hwhole, List.cons.injEq, ih (hrest ▸ hps)]
      simp only [true_and, hwhole, hnone, or_false]
    · simp only [hwhole, false_and, false_or]
      exact ⟨shifted_of_received hs hp (not_le.mp hwhole) hps, received_of_shifted hs hp⟩

/-- Of every stream that arrives, and in whatever parts: what the mediator is handed are
the packets of the stream if and only if their headers arrive. -/
theorem recvData_hands_packets_iff (owned : Bool) (s : Segments) :
    (handed (TCPServer.recvData owned s) = packets s.stream ↔ HeadersArrive (packets s.stream) s) ∧
      (handed (TCPClient.recvData s) = packets s.stream ↔ HeadersArrive (packets s.stream) s) := by
  rw [TCPServer.handed_recvData, TCPClient.handed_recvData]
  exact ⟨received_eq_packets_iff rfl, received_eq_packets_iff rfl⟩

/-- A heartbeat, which is a packet with nothing but its type. -/
def sampleHeartbeat : Bytes := [0xF2, 3, 0, 0]

def sampleWhole : Segments := ⟨[[0, 0, 0, 4, 0xF2, 3, 0, 0]], by decide⟩

/-- The first byte arrives alone. -/
def sampleCut : Segments := ⟨[[0], [0, 0, 4, 0xF2, 3, 0, 0]], by decide⟩

/-- The heartbeat is handed on if it arrives as it was sent, and not if its header is cut. -/
theorem recvData_depends_on_cut :
    sampleCut.stream = sampleWhole.stream ∧ packets sampleCut.stream = [sampleHeartbeat] ∧
      handed (TCPServer.recvData true sampleWhole) = [sampleHeartbeat] ∧
      handed (TCPServer.recvData true sampleCut) = [] ∧
      handed (TCPClient.recvData sampleWhole) = [sampleHeartbeat] ∧
      handed (TCPClient.recvData sampleCut) = [] := by
  have hpackets : packets sampleCut.stream = [sampleHeartbeat] := by
    have hall : ∀ b ∈ [sampleHeartbeat], Legal b.length ∧ b.length < 2 ^ 32 := by decide
    have hread : (prefixedReader Legal).readAll ([sampleHeartbeat].flatMap Bytes.lengthPrefixed ++ []) =
        ([sampleHeartbeat], []) := readAll_lengthPrefixed hall rfl
    exact congrArg Prod.fst hread
  exact ⟨rfl, hpackets, by decide, by decide, by decide, by decide⟩

end Net
