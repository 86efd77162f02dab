import Mathlib.Data.Int.Notation
import MistyWorld.Bytes
import MistyWorld.Run

/-!
# Outgoing packets

`WorldSocket::SendPacket` puts a packet, a header of four encrypted bytes and the contents, at the
end of the output buffer when it fits there and no block waits in the message queue, and in a
block of its own at the end of the queue otherwise. `handle_output` sends the buffer, and when all
of it went out the first block of the queue. What the socket did not take stays in front.

The bytes sent, those in the buffer and those in the queue are always the packets, one after the
other in the order of the calls (`output_run`) : the cipher of the client stays in step.

Enqueuing and the wakeups of the reactor do not fail here, and the socket is not closed. Packets
have the opcode numbers of the server's table, which have 13 bits but for the string that opens
the connection, and that one is sent before the encryption begins.
-/

open List Bytes Machine

namespace MistyWorld

/-- `MAX_OPCODE` -/
def maxOpcode : ℕ :=
  0x1FFF

/-- A `WorldPacket` to be sent, with the number of its opcode. -/
structure ServerPacket where
  opcodeNumber : ℕ
  contents : List UInt8
  opcodeNumber_le : opcodeNumber ≤ maxOpcode
  size_lt : contents.length < 2 ^ 19

/-- The header of `ServerPktHeader`, encrypted as the bytes of the stream of headers from `place`
on. -/
def serverPktHeader (c : StreamCipher) (place size cmd : ℕ) : List UInt8 :=
  transform c.encrypt place (toBytes 4 (((size <<< 13) ||| (cmd &&& maxOpcode)) % 2 ^ 32))

/-- The sending half of `WorldSocket`. `encrypted` counts the header bytes that went through the
cipher, and `sent` is what the peer was sent. -/
structure OutputSocket where
  outBufferSize : ℕ := 65536
  outBuffer : List UInt8 := []
  messageQueue : List (List UInt8) := []
  outActive : Bool := false
  encrypted : ℕ := 0
  sent : List UInt8 := []

/-- What the socket answers to an offer of bytes : it would block, or it takes some of them. `some n`
is the answer of a socket with room for `n + 1` bytes. -/
abbrev Answer := Option ℕ

namespace OutputSocket

variable (c : StreamCipher) (s : OutputSocket)

/-- `SendPacket` -/
def sendPacket (pkt : ServerPacket) : OutputSocket :=
  let header := serverPktHeader c s.encrypted pkt.contents.length pkt.opcodeNumber
  let s := { s with encrypted := s.encrypted + header.length }
  if s.outBufferSize - s.outBuffer.length ≥ pkt.contents.length + header.length ∧
      s.messageQueue = [] then
    { s with outBuffer := s.outBuffer ++ header ++ pkt.contents }
  else
    { s with messageQueue := s.messageQueue ++ [header ++ pkt.contents] }

/-- `cancel_wakeup_output` -/
def cancelWakeupOutput : OutputSocket × ℤ :=
  ({ s with outActive := false }, 0)

/-- `schedule_wakeup_output` -/
def scheduleWakeupOutput : OutputSocket × ℤ :=
  ({ s with outActive := true }, 0)

/-- `handle_output_queue` -/
def handleOutputQueue (answer : Answer) : OutputSocket × ℤ :=
  match s.messageQueue with
  | [] => s.cancelWakeupOutput
  | mblk :: queue =>
    match answer with
    | none => s.scheduleWakeupOutput
    | some room =>
      let n := min (room + 1) mblk.length
      if n = 0 then
        ({ s with messageQueue := queue }, -1)
      else if n < mblk.length then
        { s with
          messageQueue := mblk.drop n :: queue
          sent := s.sent ++ mblk.take n }.scheduleWakeupOutput
      else
        let s := { s with messageQueue := queue, sent := s.sent ++ mblk.take n }
        -- `WRITE_MASK` : there is more to send
        if queue = [] then s.cancelWakeupOutput else (s, 2)

/-- `handle_output`, with the answers to the one or two offers it makes. -/
def handleOutput (first second : Answer) : OutputSocket × ℤ :=
  if s.outBuffer = [] then
    s.handleOutputQueue first
  else
    match first with
    | none => s.scheduleWakeupOutput
    | some room =>
      let n := min (room + 1) s.outBuffer.length
      if n = 0 then
        (s, -1)
      else if n < s.outBuffer.length then
        { s with
          outBuffer := s.outBuffer.drop n
          sent := s.sent ++ s.outBuffer.take n }.scheduleWakeupOutput
      else
        { s with
          outBuffer := []
          sent := s.sent ++ s.outBuffer.take n }.handleOutputQueue second

/-- The loop of `Update` : `handle_output` as long as there is more to send. -/
def outputLoop (s : OutputSocket) : List (Answer × Answer) → OutputSocket
  | [] => s
  | (first, second) :: answers =>
    let r := s.handleOutput first second
    if 0 < r.2 then outputLoop r.1 answers else r.1

/-- `Update`, with the answers of the socket. -/
def update (answers : List (Answer × Answer)) : OutputSocket :=
  if s.outActive then
    s
  else if s.outBuffer = [] ∧ s.messageQueue = [] then
    s
  else
    s.outputLoop answers

/-- The calls on the socket. -/
inductive Call
  | sendPacket (pkt : ServerPacket)
  | handleOutput (first second : Answer)
  | update (answers : List (Answer × Answer))

/-- The socket after a call. -/
def serve (s : OutputSocket) : Call → OutputSocket
  | .sendPacket pkt => s.sendPacket c pkt
  | .handleOutput first second => (s.handleOutput first second).1
  | .update answers => s.update answers

end OutputSocket

/-! ## The stream of bytes -/

open OutputSocket

/-- The packets of the calls, in order. -/
def packets (calls : List Call) : List ServerPacket :=
  calls.filterMap fun
    | .sendPacket pkt => some pkt
    | _ => none

/-- The packets as bytes, with the headers encrypted from `place` on. -/
def encode (c : StreamCipher) (place : ℕ) : List ServerPacket → List UInt8
  | [] => []
  | pkt :: pkts =>
    serverPktHeader c place pkt.contents.length pkt.opcodeNumber ++ pkt.contents ++
      encode c (place + 4) pkts

variable {c : StreamCipher} {s : OutputSocket}

@[simp] theorem length_serverPktHeader (place size cmd : ℕ) :
    (serverPktHeader c place size cmd).length = 4 := by
  rw [serverPktHeader, length_transform, length_toBytes]

/-- The client reads the size and the opcode number off the header. -/
theorem ofBytes_serverPktHeader (place : ℕ) (pkt : ServerPacket) :
    ofBytes (transform c.decrypt place
      (serverPktHeader c place pkt.contents.length pkt.opcodeNumber)) =
      pkt.contents.length * 2 ^ 13 + pkt.opcodeNumber := by
  have hsize := pkt.size_lt
  have hnumber : pkt.opcodeNumber < 2 ^ 13 := by
    have := pkt.opcodeNumber_le
    unfold maxOpcode at this
    omega
  have hcmd : pkt.opcodeNumber &&& maxOpcode = pkt.opcodeNumber :=
    Nat.and_two_pow_sub_one_of_lt_two_pow hnumber
  have hdata : (pkt.contents.length <<< 13) ||| (pkt.opcodeNumber &&& maxOpcode) =
      pkt.contents.length * 2 ^ 13 + pkt.opcodeNumber := by
    rw [hcmd, Nat.or_comm, or_shiftLeft _ hnumber, mul_comm, add_comm]
  rw [serverPktHeader, transform_decrypt_encrypt, hdata, Nat.mod_eq_of_lt (by omega),
    ofBytes_toBytes 4 (by omega)]

theorem encode_append_cons (place : ℕ) (pkts : List ServerPacket) (pkt : ServerPacket)
    (rest : List ServerPacket) :
    encode c place (pkts ++ pkt :: rest) = encode c place pkts ++
      (serverPktHeader c (place + 4 * pkts.length) pkt.contents.length pkt.opcodeNumber ++
        pkt.contents) ++ encode c (place + 4 * (pkts.length + 1)) rest := by
  induction pkts generalizing place with
  | nil => simp [encode]
  | cons q pkts ih =>
    have hplace : ∀ n : ℕ, place + 4 + 4 * n = place + 4 * (n + 1) := by omega
    rw [cons_append, encode, ih, encode, length_cons, hplace, hplace]
    simp only [append_assoc]

theorem encode_append (place : ℕ) (pkts : List ServerPacket) (pkt : ServerPacket) :
    encode c place (pkts ++ [pkt]) = encode c place pkts ++
      (serverPktHeader c (place + 4 * pkts.length) pkt.contents.length pkt.opcodeNumber ++
        pkt.contents) := by
  rw [encode_append_cons, encode, append_nil]

namespace OutputSocket

/-- All that is on its way : the bytes sent, those of the buffer and those of the queue. -/
def stream (s : OutputSocket) : List UInt8 :=
  s.sent ++ s.outBuffer ++ s.messageQueue.flatten

/-- No block of the queue is empty. -/
def Blocks (s : OutputSocket) : Prop :=
  ∀ mblk ∈ s.messageQueue, mblk ≠ []

/-- What a call of `handle_output` leaves alone. -/
structure Flushed (s s' : OutputSocket) : Prop where
  stream_eq : s'.stream = s.stream
  encrypted_eq : s'.encrypted = s.encrypted
  blocks : s'.Blocks

theorem Flushed.refl (h : s.Blocks) : Flushed s s :=
  ⟨rfl, rfl, h⟩

theorem Flushed.trans {s t u : OutputSocket} (h : Flushed s t) (h' : Flushed t u) : Flushed s u :=
  ⟨h'.stream_eq.trans h.stream_eq, h'.encrypted_eq.trans h.encrypted_eq, h'.blocks⟩

theorem handleOutputQueue_flushed (answer : Answer) (hbuffer : s.outBuffer = [])
    (h : s.Blocks) : Flushed s (s.handleOutputQueue answer).1 := by
  obtain ⟨size, buffer, queue, active, encrypted, sent⟩ := s
  obtain rfl : buffer = [] := hbuffer
  cases queue with
  | nil => exact ⟨rfl, rfl, h⟩
  | cons mblk queue =>
    have hmblk : mblk ≠ [] := h mblk mem_cons_self
    have hqueue : ∀ b ∈ queue, b ≠ [] := fun b hb => h b (mem_cons_of_mem mblk hb)
    cases answer with
    | none => exact ⟨rfl, rfl, h⟩
    | some room =>
      have hlength : 0 < mblk.length := length_pos_iff.2 hmblk
      have hn : ¬min (room + 1) mblk.length = 0 := by omega
      simp only [handleOutputQueue, if_neg hn]
      by_cases hlt : min (room + 1) mblk.length < mblk.length
      · rw [if_pos hlt]
        refine ⟨?_, rfl, ?_⟩
        · simp only [scheduleWakeupOutput, stream, append_nil, flatten_cons,
            append_assoc, ← append_assoc (List.take _ _), take_append_drop]
        · intro b hb
          rcases mem_cons.1 hb with rfl | hb
          · exact fun hnil => absurd (drop_eq_nil_iff.1 hnil) (by omega)
          · exact hqueue b hb
      · rw [if_neg hlt]
        have htake : mblk.take (min (room + 1) mblk.length) = mblk :=
          take_of_length_le (by omega)
        split
        · refine ⟨?_, rfl, hqueue⟩
          simp only [cancelWakeupOutput, stream, htake, append_nil, flatten_cons,
            append_assoc]
        · refine ⟨?_, rfl, hqueue⟩
          simp only [stream, htake, append_nil, flatten_cons, append_assoc]

theorem handleOutput_flushed (first second : Answer) (h : s.Blocks) :
    Flushed s (s.handleOutput first second).1 := by
  unfold handleOutput
  by_cases hbuffer : s.outBuffer = []
  · rw [if_pos hbuffer]
    exact handleOutputQueue_flushed first hbuffer h
  rw [if_neg hbuffer]
  cases first with
  | none => exact ⟨rfl, rfl, h⟩
  | some room =>
    have hlength : 0 < s.outBuffer.length := length_pos_iff.2 hbuffer
    have hn : ¬min (room + 1) s.outBuffer.length = 0 := by omega
    simp only [if_neg hn]
    by_cases hlt : min (room + 1) s.outBuffer.length < s.outBuffer.length
    · rw [if_pos hlt]
      refine ⟨?_, rfl, h⟩
      simp only [scheduleWakeupOutput, stream, append_assoc, take_append_drop]
    · rw [if_neg hlt]
      have htake : s.outBuffer.take (min (room + 1) s.outBuffer.length) = s.outBuffer :=
        take_of_length_le (by omega)
      have hsent : Flushed s { s with
          outBuffer := []
          sent := s.sent ++ s.outBuffer.take (min (room + 1) s.outBuffer.length) } := by
        refine ⟨?_, rfl, h⟩
        rw [htake, stream, stream, append_nil]
      exact hsent.trans (handleOutputQueue_flushed second rfl h)

theorem outputLoop_flushed (answers : List (Answer × Answer)) (h : s.Blocks) :
    Flushed s (s.outputLoop answers) := by
  induction answers generalizing s with
  | nil => exact .refl h
  | cons a answers ih =>
    have hfirst := handleOutput_flushed a.1 a.2 h
    rw [outputLoop]
    split
    · exact hfirst.trans (ih hfirst.blocks)
    · exact hfirst

theorem update_flushed (answers : List (Answer × Answer)) (h : s.Blocks) :
    Flushed s (s.update answers) := by
  rw [update]
  split
  · exact .refl h
  split
  · exact .refl h
  · exact outputLoop_flushed answers h

/-- The state of the sending half after the packets so far. -/
structure Sending (c : StreamCipher) (pkts : List ServerPacket) (s : OutputSocket) : Prop where
  stream_eq : s.stream = encode c 0 pkts
  encrypted_eq : s.encrypted = 4 * pkts.length
  blocks : s.Blocks

variable {pkts : List ServerPacket}

section

variable (h : Sending c pkts s)
include h

theorem Sending.flushed {s' : OutputSocket} (hs : Flushed s s') : Sending c pkts s' :=
  ⟨hs.stream_eq.trans h.stream_eq, hs.encrypted_eq.trans h.encrypted_eq, hs.blocks⟩

theorem Sending.sendPacket (pkt : ServerPacket) :
    Sending c (pkts ++ [pkt]) (s.sendPacket c pkt) := by
  have hencode : encode c 0 (pkts ++ [pkt]) = s.stream ++
      (serverPktHeader c s.encrypted pkt.contents.length pkt.opcodeNumber ++ pkt.contents) := by
    rw [encode_append, h.stream_eq, h.encrypted_eq, zero_add]
  have hencrypted : s.encrypted + 4 = 4 * (pkts ++ [pkt]).length := by
    rw [h.encrypted_eq, length_append, length_singleton]
    omega
  simp only [OutputSocket.sendPacket, length_serverPktHeader]
  split
  · next hspace =>
    refine ⟨?_, hencrypted, h.blocks⟩
    rw [hencode]
    simp only [stream, hspace.2, flatten_nil, append_nil, append_assoc]
  · refine ⟨?_, hencrypted, ?_⟩
    · rw [hencode]
      simp only [stream, flatten_append, flatten_cons, flatten_nil,
        append_nil, append_assoc]
    · intro b hb
      rcases mem_append.1 hb with hb | hb
      · exact h.blocks b hb
      · rw [mem_singleton.1 hb]
        intro hnil
        have hlength := congrArg List.length hnil
        rw [length_append, length_serverPktHeader, length_nil] at hlength
        omega

/-- One call adds the packet it is given, if any. -/
theorem Sending.serve (call : Call) : Sending c (pkts ++ packets [call]) (s.serve c call) := by
  cases call with
  | sendPacket pkt => exact h.sendPacket pkt
  | handleOutput first second =>
    rw [show packets [.handleOutput first second] = [] from rfl, append_nil]
    exact h.flushed (handleOutput_flushed first second h.blocks)
  | update answers =>
    rw [show packets [.update answers] = [] from rfl, append_nil]
    exact h.flushed (update_flushed answers h.blocks)

theorem Sending.run (calls : List Call) :
    Sending c (pkts ++ packets calls) (Machine.run (OutputSocket.serve c) s calls) := by
  induction calls generalizing s pkts with
  | nil =>
    rw [show packets [] = [] from rfl, append_nil]
    exact h
  | cons call calls ih =>
    rw [show packets (call :: calls) = packets [call] ++ packets calls from
      filterMap_append (l := [call]), ← append_assoc]
    exact ih (h.serve call)

end

/-- The socket as it begins to encrypt, with nothing on its way. -/
def start (outBufferSize : ℕ) (outActive : Bool) : OutputSocket where
  outBufferSize := outBufferSize
  outActive := outActive

theorem start_sending (outBufferSize : ℕ) (outActive : Bool) :
    Sending c [] (start outBufferSize outActive) :=
  ⟨rfl, rfl, fun _ hb => absurd hb not_mem_nil⟩

end OutputSocket

/-- In every run of packets sent and outputs handled, what was sent is the beginning of the
packets in the order of the calls, and the buffer followed by the blocks of the queue is the rest.
The header of each packet, at its place in the stream of headers, decrypts to its size and its
opcode number. -/
theorem output_run (c : StreamCipher) (outBufferSize : ℕ) (outActive : Bool) (calls : List Call) :
    (run (serve c) (start outBufferSize outActive) calls).sent ++
        ((run (serve c) (start outBufferSize outActive) calls).outBuffer ++
          (run (serve c) (start outBufferSize outActive) calls).messageQueue.flatten) =
      encode c 0 (packets calls) ∧
    (run (serve c) (start outBufferSize outActive) calls).sent <+: encode c 0 (packets calls) ∧
    ∀ pkts pkt rest, packets calls = pkts ++ pkt :: rest →
      encode c 0 (packets calls) = encode c 0 pkts ++
        (serverPktHeader c (4 * pkts.length) pkt.contents.length pkt.opcodeNumber ++
          pkt.contents) ++ encode c (4 * (pkts.length + 1)) rest ∧
      ofBytes (transform c.decrypt (4 * pkts.length)
        (serverPktHeader c (4 * pkts.length) pkt.contents.length pkt.opcodeNumber)) =
          pkt.contents.length * 2 ^ 13 + pkt.opcodeNumber := by
  have hrun := (start_sending (c := c) outBufferSize outActive).run calls
  have hstream := hrun.stream_eq
  rw [nil_append, stream, append_assoc] at hstream
  refine ⟨hstream, ⟨_, hstream⟩, fun pkts pkt rest hpkts => ⟨?_, ofBytes_serverPktHeader _ pkt⟩⟩
  rw [hpkts, encode_append_cons, zero_add, zero_add]

end MistyWorld
