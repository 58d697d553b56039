-- SUMMARY: The sending side of the legacy net layer: calls that interleave on a socket, and whole frames.
import ImProject.Legacy.Kernel
import ImProject.Legacy.Receive

/-!
# Sending packets

`sendData` puts the length of a packet on the socket with one call of `send`, and the
packet with another. How many bytes were accepted is not looked at, and other threads
may send on the same socket in between.
-/

open Library Kernel

namespace Net

/-- `send` on a socket. -/
structure SendOp where
  sock : NetEndpoint
  bytes : Bytes

/-- How many bytes were accepted. There is no number for `SOCKET_ERROR`. -/
abbrev SendOp.Ans (_ : SendOp) : Type := Option Nat

/-- The answers there are: bytes are accepted, or it is an error. -/
def SendOp.Answers (op : SendOp) (answer : Option Nat) : Prop := ∀ n ∈ answer, 0 < n ∧ n ≤ op.bytes.length

instance (op : SendOp) (answer : Option Nat) : Decidable (op.Answers answer) :=
  inferInstanceAs (Decidable (∀ n ∈ answer, _))

/-- The bytes that are accepted. -/
def SendOp.taken (op : SendOp) (answer : Option Nat) : Bytes := op.bytes.take (answer.getD 0)

/-- The bytes in memory of `htonl` of an `int`. -/
def htonl (v : Int) : Bytes := Bytes.bigEndian 4 (v % 2 ^ 32).toNat

def TCPServer.sendData (data : Option Bytes) (len : Int) (dest : NetEndpoint) : Prog SendOp.Ans Bool :=
  match data with
  | none => pure false
  | some data =>
    if len < 1 then pure false
    else if MAX_PACK_LEN < len then pure false
    else do
      match ← Prog.perform ⟨dest, htonl len⟩ with
      | none => pure false
      | some _ =>
        match ← Prog.perform ⟨dest, data.take len.toNat⟩ with
        | none => pure false
        | some _ => pure true

/-! ## Calls -/

/-- A call of `sendData`. The buffer holds as many bytes as are to be sent. -/
structure Call where
  data : Option Bytes
  len : Int
  dest : NetEndpoint
  fits : ∀ b ∈ data, len ≤ b.length

namespace Call

/-- The call for a packet of the kernel: the type, little-endian, and the payload. -/
def ofPacket (type : Int) (payload : Bytes) (dest : NetEndpoint) : Call where
  data := some (memory type ++ payload)
  len := (memory type ++ payload).length
  dest := dest
  fits := by simp

def program (c : Call) : Prog SendOp.Ans Bool := TCPServer.sendData c.data c.len c.dest

def packet (c : Call) : Bytes := (c.data.getD []).take c.len.toNat

def header (c : Call) : Bytes := htonl c.len

def frame (c : Call) : Bytes := c.header ++ c.packet

/-- The call gets past the checks of its parameters. -/
structure Valid (c : Call) : Prop where
  data : c.data.isSome
  pos : 1 ≤ c.len
  le : c.len ≤ MAX_PACK_LEN

/-- What is left to do after the second `send`. -/
def afterPacket : Option Nat → Prog SendOp.Ans Bool
  | none => .ret false
  | some _ => .ret true

/-- What is left to do after the first. -/
def afterHeader (c : Call) : Option Nat → Prog SendOp.Ans Bool
  | none => .ret false
  | some _ => .act ⟨c.dest, c.packet⟩ afterPacket

variable {c : Call}

theorem program_of_valid (h : c.Valid) : c.program = .act ⟨c.dest, c.header⟩ c.afterHeader := by
  obtain ⟨data, hdata⟩ := Option.isSome_iff_exists.mp h.data
  rw [program, hdata, TCPServer.sendData, if_neg (not_lt.mpr h.pos), if_neg (not_lt.mpr h.le), Prog.perform_bind]
  congr 1
  funext answer
  cases answer with
  | none => rfl
  | some n =>
    rw [afterHeader, packet, hdata]
    dsimp only [Option.getD_some]
    rw [Prog.perform_bind]
    congr 1
    funext answer
    cases answer <;> rfl

theorem program_of_not_valid (h : ¬ c.Valid) : c.program = .ret false := by
  rw [program]
  cases hdata : c.data with
  | none => rfl
  | some data =>
    rw [TCPServer.sendData]
    split
    · rfl
    rename_i hpos
    split
    · rfl
    rename_i hle
    exact absurd ⟨hdata ▸ rfl, not_lt.mp hpos, not_lt.mp hle⟩ h

theorem Valid.length_packet (h : c.Valid) : (c.packet.length : Int) = c.len := by
  obtain ⟨data, hdata⟩ := Option.isSome_iff_exists.mp h.data
  have hfits := c.fits data hdata
  have hpos := h.pos
  rw [packet, hdata, Option.getD_some, List.length_take]
  omega

theorem Valid.legal (h : c.Valid) : Legal c.packet.length := by
  have hlen := h.length_packet
  have hpos := h.pos
  have hle := h.le
  unfold MAX_PACK_LEN at hle
  constructor <;> omega

theorem Valid.frame_eq (h : c.Valid) : c.frame = Bytes.lengthPrefixed c.packet := by
  have hlt := h.legal.lt
  rw [frame, header, htonl, Bytes.lengthPrefixed, ← h.length_packet]
  congr 2
  omega

@[simp] theorem length_header (c : Call) : c.header.length = 4 := Bytes.length_bigEndian 4 _

theorem header_ne_nil (c : Call) : c.header ≠ [] := by
  rw [← List.length_pos_iff, length_header]
  decide

/-- Behind a header alone there is no packet. -/
theorem Valid.nextPrefixed_header (h : c.Valid) : nextPrefixed Legal c.header = none := by
  have hpos := h.legal.1
  have hheader : c.header = Bytes.bigEndian 4 c.packet.length := by
    have hframe := h.frame_eq
    rw [frame, Bytes.lengthPrefixed] at hframe
    exact List.append_cancel_right hframe
  have hread : readExact 4 (c.header ++ []) = some (c.header, []) := readExact_append (length_header c)
  rw [List.append_nil] at hread
  rw [nextPrefixed, hread, Option.bind_some]
  dsimp only
  rw [hheader, value_header h.legal.lt, if_pos h.legal, readExact_eq_none_iff]
  exact hpos

end Call

/-! ## Interleaved calls -/

/-- A call that has been made: what it has left to do, and what has been accepted of it. -/
structure Sending where
  call : Call
  todo : Prog SendOp.Ans Bool
  accepted : Bytes := []

namespace Sending

def returned (x : Sending) : Option Bool :=
  match x.todo with
  | .ret ok => some ok
  | .act .. => none

/-- Something of the call has been accepted, and it has not returned. -/
def UnderWay (x : Sending) : Prop := x.accepted ≠ [] ∧ x.returned = none

instance : DecidablePred UnderWay := fun x => inferInstanceAs (Decidable (x.accepted ≠ [] ∧ _))

def Succeeded (x : Sending) : Prop := x.returned = some true

instance : DecidablePred Succeeded := fun x => inferInstanceAs (Decidable (x.returned = some true))

variable {c : Call} {p : Prog SendOp.Ans Bool} {op : SendOp} {k : op.Ans → Prog SendOp.Ans Bool} {b : Bytes}

theorem underWay_act (h : b ≠ []) : UnderWay ⟨c, .act op k, b⟩ := ⟨h, rfl⟩

theorem succeeded_ret : Succeeded ⟨c, .ret true, b⟩ := rfl

theorem not_underWay_nil : ¬ UnderWay ⟨c, p, []⟩ := fun h => h.1 rfl

theorem not_underWay_ret {ok : Bool} : ¬ UnderWay ⟨c, .ret ok, b⟩ := nofun

theorem not_succeeded_act : ¬ Succeeded ⟨c, .act op k, b⟩ := nofun

theorem not_succeeded_failed : ¬ Succeeded ⟨c, .ret false, b⟩ := nofun

end Sending

/-- The bytes that the peers of the sockets receive, and the calls. -/
structure Sockets where
  stream : NetEndpoint → Bytes := fun _ => []
  calls : List Sending := []

inductive SendAction where
  | call (c : Call)
  /-- The `send` that a call waits for is answered. -/
  | send (i : Nat) (answer : Option Nat)

namespace Sockets

def step (s : Sockets) : SendAction → Option Sockets
  | .call c => some { s with calls := s.calls ++ [{ call := c, todo := c.program }] }
  | .send i answer =>
    match s.calls[i]? with
    | some ⟨call, .act op k, accepted⟩ =>
      if op.Answers answer then
        some {
          stream := Function.update s.stream op.sock (s.stream op.sock ++ op.taken answer)
          calls := s.calls.set i ⟨call, k answer, accepted ++ op.taken answer⟩ }
      else none
    | _ => none

/-- The sockets, from when nothing has been sent on them. -/
def system : System Sockets SendAction where
  Init s := s = {}
  step := step

/-- A `send` accepts all it is given, or it is an error before anything has been accepted of
the call; and while a call is under way to a socket, no other header is accepted there. -/
def Guarded (s : Sockets) : SendAction → Prop
  | .call _ => True
  | .send i answer =>
    match s.calls[i]? with
    | some ⟨call, .act op _, accepted⟩ =>
      match answer with
      | none => accepted = []
      | some n => n = op.bytes.length ∧
          (accepted = [] → ∀ x ∈ s.calls, x.call.dest = call.dest → ¬ x.UnderWay)
    | _ => True

instance (s : Sockets) : (a : SendAction) → Decidable (Guarded s a)
  | .call _ => isTrue trivial
  | .send i answer =>
    match h : s.calls[i]? with
    | some ⟨call, .act op _, accepted⟩ =>
      match answer with
      | none => decidable_of_iff (accepted = []) (by simp [Guarded, h])
      | some n =>
        decidable_of_iff (n = op.bytes.length ∧
          (accepted = [] → ∀ x ∈ s.calls, x.call.dest = call.dest → ¬ x.UnderWay)) (by simp [Guarded, h])
    | some ⟨_, .ret _, _⟩ => isTrue (by simp [Guarded, h])
    | none => isTrue (by simp [Guarded, h])

/-- The calls to a socket that are in a certain state. -/
def callsTo (P : Sending → Prop) [DecidablePred P] (dest : NetEndpoint) (calls : List Sending) : List Call :=
  (calls.filter fun x => x.call.dest = dest ∧ P x).map (·.call)

/-- The calls to the socket that have returned true. -/
def succeeded (s : Sockets) (dest : NetEndpoint) : List Call := callsTo Sending.Succeeded dest s.calls

/-- The calls to the socket that are under way. -/
def underWay (s : Sockets) (dest : NetEndpoint) : List Call := callsTo Sending.UnderWay dest s.calls

/-- Each stream is made up of the frames of the calls that returned true, in some order,
and of a header while another call is under way. These calls have sent all their bytes,
and their packets are what the stream decodes to. -/
structure Whole (s : Sockets) : Prop where
  accepted : ∀ x ∈ s.calls, x.Succeeded → x.accepted = x.call.frame
  streams : ∀ dest, ∃ done : List Call, done.Perm (s.succeeded dest) ∧
    (∃ rest, s.stream dest = done.flatMap Call.frame ++ rest ∧
      (rest = [] ∨ ∃ x ∈ s.calls, x.call.dest = dest ∧ x.UnderWay ∧ rest = x.call.header)) ∧
    packets (s.stream dest) = done.map Call.packet

/-! ## What a step does -/

section

variable {P : Sending → Prop} [DecidablePred P] {dest : NetEndpoint} {x : Sending} {l l' : List Sending}

theorem callsTo_append : callsTo P dest (l ++ l') = callsTo P dest l ++ callsTo P dest l' := by
  simp [callsTo]

theorem callsTo_of_pos {c : Call} (hx : x.call = c) (hP : P x) : callsTo P c.dest [x] = [c] := by
  simp [callsTo, hx, hP]

theorem callsTo_of_neg (hP : ¬ P x) : callsTo P dest [x] = [] := by
  simp [callsTo, hP]

theorem callsTo_of_ne (h : x.call.dest ≠ dest) : callsTo P dest [x] = [] := by
  simp [callsTo, h]

theorem callsTo_middle (l : List Sending) (x : Sending) (l' : List Sending) :
    callsTo P dest (l ++ x :: l') = callsTo P dest l ++ (callsTo P dest [x] ++ callsTo P dest l') := by
  rw [← callsTo_append, ← callsTo_append, List.singleton_append]

theorem mem_callsTo {c : Call} :
    c ∈ callsTo P dest l ↔ ∃ x ∈ l, x.call.dest = dest ∧ P x ∧ x.call = c := by
  simp [callsTo, and_assoc]

theorem callsTo_eq_nil (h : ∀ x ∈ l, x.call.dest = dest → ¬ P x) : callsTo P dest l = [] := by
  simpa [callsTo] using h

end

theorem step_cases {s s' : Sockets} {a : SendAction} (h : system.step s a = some s') :
    (∃ c, a = .call c ∧ s' = { s with calls := s.calls ++ [{ call := c, todo := c.program }] }) ∨
    ∃ before call op k accepted after answer, a = .send before.length answer ∧
      s.calls = before ++ ⟨call, .act op k, accepted⟩ :: after ∧ op.Answers answer ∧
      s' = { stream := Function.update s.stream op.sock (s.stream op.sock ++ op.taken answer),
             calls := before ++ ⟨call, k answer, accepted ++ op.taken answer⟩ :: after } := by
  cases a with
  | call c => exact .inl ⟨c, rfl, (Option.some.inj h).symm⟩
  | send i answer =>
    change step s (.send i answer) = some s' at h
    rw [step] at h
    split at h
    · rename_i call op k accepted hx
      obtain ⟨hi, hget⟩ := List.getElem?_eq_some_iff.mp hx
      split at h
      · rename_i hanswer
        have hlen : (s.calls.take i).length = i := List.length_take_of_le hi.le
        have hcalls : s.calls =
            s.calls.take i ++ ⟨call, .act op k, accepted⟩ :: s.calls.drop (i + 1) := by
          rw [← hget, List.getElem_cons_drop, List.take_append_drop]
        refine .inr ⟨_, call, op, k, accepted, _, answer, by rw [hlen], hcalls, hanswer, ?_⟩
        rw [← Option.some.inj h, List.set_eq_take_append_cons_drop, if_pos hi]
      · cases h
    · cases h

/-! ## Guarded runs -/

/-- How far a call has got. -/
inductive Stage : Sending → Prop
  | failed (c : Call) : Stage ⟨c, .ret false, []⟩
  | header (c : Call) (h : c.Valid) : Stage ⟨c, .act ⟨c.dest, c.header⟩ c.afterHeader, []⟩
  | packet (c : Call) (h : c.Valid) : Stage ⟨c, .act ⟨c.dest, c.packet⟩ Call.afterPacket, c.header⟩
  | sent (c : Call) (h : c.Valid) : Stage ⟨c, .ret true, c.frame⟩

theorem stage_start (c : Call) : Stage { call := c, todo := c.program } := by
  by_cases h : c.Valid
  · rw [Call.program_of_valid h]
    exact .header c h
  · rw [Call.program_of_not_valid h]
    exact .failed c

/-- A stream with the calls that are under way there, one at most, and those that returned true. -/
structure Framed (stream : Bytes) (underWay succeeded : List Call) : Prop where
  single : underWay.length ≤ 1
  frames : ∃ done : List Call, done.Perm succeeded ∧
    stream = done.flatMap Call.frame ++ underWay.flatMap Call.header

/-- A header is put behind whole frames. -/
theorem Framed.header {stream : Bytes} {before after succeeded : List Call} {c : Call}
    (h : Framed stream (before ++ after) succeeded) (hnone : before ++ after = []) :
    Framed (stream ++ c.header) (before ++ ([c] ++ after)) succeeded := by
  obtain ⟨done, hdone, hstream⟩ := h.frames
  obtain ⟨rfl, rfl⟩ := List.append_eq_nil_iff.mp hnone
  refine ⟨le_rfl, done, hdone, ?_⟩
  rw [hstream]
  simp

/-- The packet is put behind its header, and makes it a frame. -/
theorem Framed.packet {stream : Bytes} {before after before' after' : List Call} {c : Call}
    (h : Framed stream (before ++ ([c] ++ after)) (before' ++ after')) :
    Framed (stream ++ c.packet) (before ++ after) (before' ++ ([c] ++ after')) := by
  obtain ⟨done, hdone, hstream⟩ := h.frames
  have hone := h.single
  rw [List.length_append, List.length_append, List.length_singleton] at hone
  obtain rfl : before = [] := List.eq_nil_of_length_eq_zero (by omega)
  obtain rfl : after = [] := List.eq_nil_of_length_eq_zero (by omega)
  refine ⟨Nat.zero_le 1, done ++ [c], ?_, ?_⟩
  · calc
      (done ++ [c]).Perm (c :: done) := List.perm_append_singleton c done
      _ |>.Perm (c :: (before' ++ after')) := hdone.cons c
      _ |>.Perm (before' ++ ([c] ++ after')) := List.perm_middle.symm
  · rw [hstream]
    simp [Call.frame]

/-- What holds in a run that is guarded. -/
structure Tied (s : Sockets) : Prop where
  stages : ∀ x ∈ s.calls, Stage x
  framed : ∀ dest, Framed (s.stream dest) (s.underWay dest) (s.succeeded dest)

theorem tied_init : Tied {} where
  stages := by simp
  framed _ := ⟨Nat.zero_le 1, [], .nil, rfl⟩

/-- A call that begins has no part in any stream. -/
theorem Tied.call {s : Sockets} (h : s.Tied) (c : Call) :
    Tied { s with calls := s.calls ++ [{ call := c, todo := c.program }] } := by
  have hstage := stage_start c
  have hidle : ¬ Sending.Succeeded { call := c, todo := c.program } := by
    intro hsucceeded
    generalize c.program = todo at hstage hsucceeded
    cases hstage <;> cases hsucceeded
  refine ⟨fun x hx => ?_, fun dest => ?_⟩
  · rcases List.mem_append.mp hx with hx | hx
    · exact h.stages x hx
    · rw [List.mem_singleton.mp hx]
      exact hstage
  · have hnew : ∀ x ∈ [({ call := c, todo := c.program } : Sending)], ¬ x.UnderWay ∧ ¬ x.Succeeded := by
      simpa [Sending.not_underWay_nil] using hidle
    rw [underWay, succeeded, callsTo_append, callsTo_append, callsTo_eq_nil fun x hx _ => (hnew x hx).1,
      callsTo_eq_nil fun x hx _ => (hnew x hx).2, List.append_nil, List.append_nil]
    exact h.framed dest

/-- A call goes on: it is enough to look at the socket it is for. -/
theorem Tied.replace {s : Sockets} {c : Call} {before after : List Sending} {x : Sending} {b : Bytes}
    (h : s.Tied) (hcalls : s.calls = before ++ x :: after) (x' : Sending) (hx : x.call = c) (hx' : x'.call = c)
    (hstage : Stage x')
    (hframed : Framed (s.stream c.dest ++ b) (callsTo Sending.UnderWay c.dest (before ++ x' :: after))
      (callsTo Sending.Succeeded c.dest (before ++ x' :: after))) :
    Tied { stream := Function.update s.stream c.dest (s.stream c.dest ++ b), calls := before ++ x' :: after } where
  stages y hy := by
    rcases List.mem_append.mp hy with hy | hy
    · exact h.stages y (by simp [hcalls, hy])
    rcases List.mem_cons.mp hy with rfl | hy
    · exact hstage
    · exact h.stages y (by simp [hcalls, hy])
  framed dest := by
    dsimp only [underWay, succeeded]
    by_cases hdest : dest = c.dest
    · subst hdest
      rw [Function.update_self]
      exact hframed
    · have hother := h.framed dest
      rw [underWay, succeeded, hcalls, callsTo_middle, callsTo_middle, callsTo_of_ne (hx ▸ Ne.symm hdest),
        callsTo_of_ne (hx ▸ Ne.symm hdest)] at hother
      rw [Function.update_of_ne hdest, callsTo_middle, callsTo_middle,
        callsTo_of_ne (hx' ▸ Ne.symm hdest), callsTo_of_ne (hx' ▸ Ne.symm hdest)]
      exact hother

theorem Tied.step {s s' : Sockets} {a : SendAction} (h : s.Tied) (hguarded : Guarded s a)
    (hstep : system.step s a = some s') : s'.Tied := by
  obtain ⟨c, rfl, rfl⟩ | ⟨before, c, op, k, accepted, after, answer, rfl, hcalls, -, rfl⟩ :=
    step_cases hstep
  · exact h.call c
  have hat : s.calls[before.length]? = some ⟨c, .act op k, accepted⟩ := by simp [hcalls]
  rw [Guarded, hat] at hguarded
  have hframed := h.framed c.dest
  rw [underWay, succeeded, hcalls, callsTo_middle, callsTo_middle] at hframed
  cases h.stages _ (List.mem_of_getElem? hat) with
  | header _ hc =>
    rw [callsTo_of_neg Sending.not_underWay_nil, callsTo_of_neg Sending.not_succeeded_act] at hframed
    cases answer with
    | none =>
      refine h.replace hcalls ⟨c, .ret false, []⟩ rfl rfl (.failed c) ?_
      rw [callsTo_middle, callsTo_middle, callsTo_of_neg Sending.not_underWay_ret,
        callsTo_of_neg Sending.not_succeeded_failed]
      simpa [SendOp.taken] using hframed
    | some n =>
      -- the guard says that no other call is under way to this socket
      obtain ⟨rfl, hfree⟩ := hguarded
      have hnone := callsTo_eq_nil (hfree rfl)
      rw [hcalls, callsTo_middle, callsTo_of_neg Sending.not_underWay_nil] at hnone
      rw [SendOp.taken, Option.getD_some, List.take_length, List.nil_append]
      refine h.replace hcalls ⟨c, .act ⟨c.dest, c.packet⟩ Call.afterPacket, c.header⟩ rfl rfl
        (.packet c hc) ?_
      rw [callsTo_middle, callsTo_middle, callsTo_of_pos rfl (Sending.underWay_act c.header_ne_nil),
        callsTo_of_neg Sending.not_succeeded_act]
      exact hframed.header hnone
  | packet _ hc =>
    rw [callsTo_of_pos rfl (Sending.underWay_act c.header_ne_nil),
      callsTo_of_neg Sending.not_succeeded_act] at hframed
    cases answer with
    | none =>
      -- an error here would leave the header without its packet
      exact absurd hguarded c.header_ne_nil
    | some n =>
      obtain ⟨rfl, -⟩ := hguarded
      rw [SendOp.taken, Option.getD_some, List.take_length]
      refine h.replace hcalls ⟨c, .ret true, c.frame⟩ rfl rfl (.sent c hc) ?_
      rw [callsTo_middle, callsTo_middle, callsTo_of_neg Sending.not_underWay_ret,
        callsTo_of_pos rfl Sending.succeeded_ret]
      exact hframed.packet

theorem tied {s : Sockets} (h : system.ReachableWhen Guarded s) : s.Tied := by
  refine h.invariant ?_ fun s a s' _ hI hguarded hstep => hI.step hguarded hstep
  rintro s rfl
  exact tied_init

/-! ## Whole frames -/

theorem Stage.valid_of_underWay {x : Sending} (h : Stage x) (hx : x.UnderWay) : x.call.Valid := by
  cases h with
  | packet _ hc => exact hc
  | header _ hc => exact hc
  | failed _ => exact absurd hx Sending.not_underWay_nil
  | sent _ hc => exact hc

theorem Stage.of_succeeded {x : Sending} (h : Stage x) (hx : x.Succeeded) :
    x.call.Valid ∧ x.accepted = x.call.frame := by
  cases h with
  | sent _ hc => exact ⟨hc, rfl⟩
  | header _ _ => exact absurd hx Sending.not_succeeded_act
  | packet _ _ => exact absurd hx Sending.not_succeeded_act
  | failed _ => exact absurd hx Sending.not_succeeded_failed

/-- Frames are decoded to their packets. -/
theorem packets_frames {calls : List Call} {tail : Bytes} (h : ∀ c ∈ calls, c.Valid)
    (htail : nextPrefixed Legal tail = none) :
    packets (calls.flatMap Call.frame ++ tail) = calls.map Call.packet := by
  have hframes : calls.flatMap Call.frame = (calls.map Call.packet).flatMap Bytes.lengthPrefixed := by
    rw [List.flatMap_map]
    exact List.flatMap_congr fun c hc => (h c hc).frame_eq
  have hlegal : ∀ b ∈ calls.map Call.packet, Legal b.length ∧ b.length < 2 ^ 32 := by
    intro b hb
    obtain ⟨c, hc, rfl⟩ := List.mem_map.mp hb
    exact ⟨(h c hc).legal, (h c hc).legal.lt⟩
  rw [packets, hframes, readAll_lengthPrefixed hlegal htail]

theorem Tied.whole {s : Sockets} (h : s.Tied) : s.Whole where
  accepted x hx hsucceeded := ((h.stages x hx).of_succeeded hsucceeded).2
  streams dest := by
    obtain ⟨done, hdone, hstream⟩ := (h.framed dest).frames
    have hvalid : ∀ c ∈ done, c.Valid := by
      intro c hc
      obtain ⟨x, hx, -, hsucceeded, rfl⟩ := mem_callsTo.mp (hdone.mem_iff.mp hc)
      exact ((h.stages x hx).of_succeeded hsucceeded).1
    refine ⟨done, hdone, ?_⟩
    rw [hstream]
    cases hunderWay : s.underWay dest with
    | nil => exact ⟨⟨[], rfl, .inl rfl⟩, packets_frames hvalid rfl⟩
    | cons c others =>
      have hsingle := (h.framed dest).single
      rw [hunderWay, List.length_cons] at hsingle
      obtain rfl : others = [] := List.eq_nil_of_length_eq_zero (by omega)
      obtain ⟨x, hx, hdest, hxu, rfl⟩ := mem_callsTo.mp (hunderWay ▸ List.mem_cons_self)
      rw [List.flatMap_singleton]
      exact ⟨⟨_, rfl, .inr ⟨x, hx, hdest, hxu, rfl⟩⟩,
        packets_frames hvalid ((h.stages x hx).valid_of_underWay hxu).nextPrefixed_header⟩

/-- A peer at which the headers arrive hands on the packets of the calls that returned true. -/
theorem Whole.handed {s : Sockets} (h : s.Whole) {dest : NetEndpoint} {arrival : Segments}
    (hstream : arrival.stream = s.stream dest) (harrive : HeadersArrive (packets arrival.stream) arrival) :
    (handed (TCPClient.recvData arrival)).Perm ((s.succeeded dest).map Call.packet) := by
  obtain ⟨done, hdone, -, hpackets⟩ := h.streams dest
  rw [TCPClient.handed_recvData, (received_eq_packets_iff rfl).mpr harrive, hstream, hpackets]
  exact hdone.map _

/-- Of calls to any sockets, interleaved in any way: as long as the sends are guarded, the
streams are made up of the frames of the calls that return true. -/
theorem sendData_frames_whole {s : Sockets} (h : system.ReachableWhen Guarded s) : s.Whole := (tied h).whole

/-- Two users write to the one whose socket is 7. -/
def sampleChat (myid : UInt8) : Call := .ofPacket 1005 [8, myid, 16, 2] 7

/-- The second cannot send while the first is at it, and tries again. -/
def sampleSends : List SendAction :=
  [.call (sampleChat 1), .call (sampleChat 3), .send 0 (some 4), .send 1 none, .send 0 (some 8),
    .call (sampleChat 3), .send 2 (some 4), .send 2 (some 8)]

theorem sendData_frames_whole_sample :
    (system.after {} sampleSends).Whole ∧
      (system.after {} sampleSends).calls.map Sending.returned = [some true, some false, some true] := by
  refine ⟨sendData_frames_whole (System.reachableWhen_after rfl ?_ ?_), ?_⟩ <;> decide

/-- Both headers are sent before the packets are. -/
def sampleMixed : List SendAction :=
  [.call (sampleChat 1), .call (sampleChat 3), .send 0 (some 4), .send 1 (some 4), .send 1 (some 8),
    .send 0 (some 8)]

/-- A part of the packet is accepted. -/
def sampleShort : List SendAction := [.call (sampleChat 1), .send 0 (some 4), .send 0 (some 5)]

/-- Calls that return true may get between each other, and the peer decodes a packet that is
none of theirs; and a call returns true though not all of its bytes were accepted. -/
theorem sendData_frames_mix :
    (system.Reachable (system.after {} sampleMixed) ∧
      (system.after {} sampleMixed).calls.map Sending.returned = [some true, some true] ∧
      packets ((system.after {} sampleMixed).stream 7) = [[0, 0, 0, 8, 0xED, 3, 0, 0]] ∧
      ¬ (packets ((system.after {} sampleMixed).stream 7)).Perm
        (((system.after {} sampleMixed).succeeded 7).map Call.packet)) ∧
    (system.Reachable (system.after {} sampleShort) ∧
      ∃ x ∈ (system.after {} sampleShort).calls, x.Succeeded ∧ x.accepted ≠ x.call.frame) := by
  have hstream : (system.after {} sampleMixed).stream 7 =
      [[0, 0, 0, 8, 0xED, 3, 0, 0]].flatMap Bytes.lengthPrefixed ++
        [8, 3, 16, 2, 0xED, 3, 0, 0, 8, 1, 16, 2] := by
    decide
  have hpackets : packets ((system.after {} sampleMixed).stream 7) = [[0, 0, 0, 8, 0xED, 3, 0, 0]] := by
    rw [packets, hstream, readAll_lengthPrefixed (by decide) (by decide)]
  have hmixed : ¬ (packets ((system.after {} sampleMixed).stream 7)).Perm
      (((system.after {} sampleMixed).succeeded 7).map Call.packet) := by
    intro h
    rw [hpackets] at h
    exact absurd h.length_eq (by decide)
  exact ⟨⟨System.reachable_after rfl (by decide), by decide, hpackets, hmixed⟩,
    System.reachable_after rfl (by decide), by decide⟩

end Sockets

end Net
