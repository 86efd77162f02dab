import Mathlib.Data.Nat.Notation
import MistyWorld.Bytes
import MistyWorld.Run

/-!
# Incoming packets

`handle_input_missing_data` cuts what the peer sent into headers of four encrypted bytes and the
contents they announce, and hands each packet to `ProcessIncoming`. A header or the contents of a
packet may arrive in any number of pieces.

A block is worked off as its bytes one by one would be (`handleInputMissingData_eq_foldl`), so the
packets depend on the bytes alone and not on the blocks they came in. They are those of the
framing of the bytes (`framing`) as the code reads it. The code keeps the size of a header in 16
bits (`header.size`), where the header has 19 : the framing is the announced one when no size
above the limit gets below it there (`framed_iff`).

`ProcessIncoming` is given by its answer to the packets so far.
-/

open List Bytes Machine

namespace MistyWorld

/-- A packet handed to `ProcessIncoming`. -/
structure ClientPacket where
  opcodeNumber : ℕ
  contents : List UInt8
deriving DecidableEq

/-- `m_RecvWPct`, of which `contents` was received. `m_RecvPct` is the room for the rest. -/
structure RecvWPct where
  opcodeNumber : ℕ
  size : ℕ
  contents : List UInt8

/-- The free space of `m_RecvPct`. -/
def RecvWPct.space (pkt : RecvWPct) : ℕ :=
  pkt.size - pkt.contents.length

/-- `m_RecvPct.copy` -/
def RecvWPct.copy (pkt : RecvWPct) (l : List UInt8) : RecvWPct :=
  { pkt with contents := pkt.contents ++ l }

/-- The receiving half of `WorldSocket`. `decrypted` counts the header bytes that went through the
cipher, and `incoming` are the packets handed to `ProcessIncoming`. -/
structure InputSocket where
  worldHeader : List UInt8 := []
  recvWPct : Option RecvWPct := none
  decrypted : ℕ := 0
  incoming : List ClientPacket := []
  closing : Bool := false

/-- `sizeof(WorldClientPktHeader)` -/
def worldHeaderSize : ℕ :=
  4

/-- The largest size of a packet that the server takes. -/
def maxIncomingSize : ℕ :=
  10236

/-- `PacketFilter::DropHighBytes` -/
def dropHighBytes (opcode : ℕ) : ℕ :=
  opcode &&& 0x7FFF

/-- `WorldClientPktHeader::cmd` of a decrypted header. -/
def headerCmd (value : ℕ) : ℕ :=
  value &&& 0x1FFF

/-- `WorldClientPktHeader::size` of a decrypted header, a field of 16 bits. -/
def headerSize (value : ℕ) : ℕ :=
  ((value &&& (0xFFFFFFFF ^^^ 0x1FFF)) >>> 13) % 2 ^ 16

namespace InputSocket

variable (c : StreamCipher) (processIncoming : List ClientPacket → Bool) (s : InputSocket)

/-- The free space of `m_WorldHeader`. -/
def headerSpace : ℕ :=
  worldHeaderSize - s.worldHeader.length

/-- `m_WorldHeader.copy` -/
def copyHeader (l : List UInt8) : InputSocket :=
  { s with worldHeader := s.worldHeader ++ l }

/-- The socket with another `m_RecvWPct`. -/
def setRecvWPct (pkt : RecvWPct) : InputSocket :=
  { s with recvWPct := some pkt }

/-- `handle_input_header` -/
def handleInputHeader : InputSocket :=
  let header := transform c.decrypt s.decrypted s.worldHeader
  let s := { s with worldHeader := header, decrypted := s.decrypted + header.length }
  let value := ofBytes header
  if headerSize value > maxIncomingSize then
    { s with closing := true }
  else
    s.setRecvWPct ⟨dropHighBytes (headerCmd value), headerSize value, []⟩

/-- `handle_input_payload` -/
def handleInputPayload (pkt : RecvWPct) : InputSocket :=
  let incoming := s.incoming ++ [⟨pkt.opcodeNumber, pkt.contents⟩]
  { s with
    incoming := incoming
    recvWPct := none
    worldHeader := []
    closing := !processIncoming incoming }

/-- The part of the loop of `handle_input_missing_data` that receives the header. It fails with
the socket when the function returns. -/
def receiveHeader (block : List UInt8) : Except InputSocket (InputSocket × List UInt8) :=
  if s.headerSpace > 0 then
    let toHeader := if block.length > s.headerSpace then s.headerSpace else block.length
    let s := s.copyHeader (block.take toHeader)
    let block := block.drop toHeader
    if s.headerSpace > 0 then
      .error s
    else
      let s := s.handleInputHeader c
      if s.closing then .error s else .ok (s, block)
  else
    .ok (s, block)

/-- The part of the loop that receives the contents. -/
def receivePayload (block : List UInt8) : Except InputSocket (InputSocket × List UInt8) :=
  match s.recvWPct with
  | none => .error { s with closing := true }
  | some pkt =>
    let toData := if block.length > pkt.space then pkt.space else block.length
    let pkt := pkt.copy (block.take toData)
    let block := block.drop toData
    let s := s.setRecvWPct pkt
    if pkt.space > 0 then
      .error s
    else
      let s := s.handleInputPayload processIncoming pkt
      if s.closing then .error s else .ok (s, block)

/-- One turn of the loop. -/
def receive (block : List UInt8) : Except InputSocket (InputSocket × List UInt8) := do
  let (s, block) ← s.receiveHeader c block
  s.receivePayload processIncoming block

/-- The loop of `handle_input_missing_data`. Each turn takes a byte at least. -/
def inputLoop : ℕ → InputSocket → List UInt8 → InputSocket
  | 0, s, _ => s
  | turns + 1, s, block =>
    if block = [] then
      s
    else
      match s.receive c processIncoming block with
      | .error s => s
      | .ok (s, block) => inputLoop turns s block

/-- `handle_input_missing_data`, on the bytes that the peer sent. A closing socket is not
called. -/
def handleInputMissingData (block : List UInt8) : InputSocket :=
  if s.closing then s else inputLoop c processIncoming block.length s block

end InputSocket

/-! ## The framing of a stream -/

/-- The packets of a stream, the sizes that their headers announce, and whether the connection is
closed after them. -/
structure Framing where
  packets : List ClientPacket
  sizes : List ℕ
  closed : Bool

/-- The framing of the bytes of a stream, where `sizeOf` reads the size off a header : packets
follow each other until one is too long or is refused. -/
def framingOf (sizeOf : ℕ → ℕ) (c : StreamCipher) (processIncoming : List ClientPacket → Bool)
    (place : ℕ) (before : List ClientPacket) (stream : List UInt8) : Framing :=
  if hheader : stream.length < 4 then
    ⟨[], [], false⟩
  else
    let value := ofBytes (transform c.decrypt place (stream.take 4))
    let size := value / 2 ^ 13
    if sizeOf value > maxIncomingSize then
      ⟨[], [size], true⟩
    else if (stream.drop 4).length < sizeOf value then
      ⟨[], [size], false⟩
    else
      let pkt := ⟨value % 2 ^ 13, (stream.drop 4).take (sizeOf value)⟩
      if processIncoming (before ++ [pkt]) then
        let rest := framingOf sizeOf c processIncoming (place + 4) (before ++ [pkt])
          ((stream.drop 4).drop (sizeOf value))
        ⟨pkt :: rest.packets, size :: rest.sizes, rest.closed⟩
      else
        ⟨[pkt], [size], true⟩
termination_by stream.length
decreasing_by
  simp only [length_drop]
  omega

/-- The framing with the size of 19 bits that the header has. -/
def framing (c : StreamCipher) (processIncoming : List ClientPacket → Bool)
    (stream : List UInt8) : Framing :=
  framingOf (· / 2 ^ 13) c processIncoming 0 [] stream

/-- However the stream is cut into blocks of at most 4096 bytes, the packets handed over are those
of its framing, and the socket closes with it. -/
def Framed (c : StreamCipher) (processIncoming : List ClientPacket → Bool)
    (stream : List UInt8) : Prop :=
  ∀ blocks : List (List UInt8), blocks.flatten = stream →
    (∀ block ∈ blocks, 1 ≤ block.length ∧ block.length ≤ 4096) →
      let s := run (InputSocket.handleInputMissingData c processIncoming) {} blocks
      s.incoming = (framing c processIncoming stream).packets ∧
        s.closing = (framing c processIncoming stream).closed

/-! ## Byte by byte -/

namespace InputSocket

variable {c : StreamCipher} {processIncoming : List ClientPacket → Bool} {s : InputSocket}

/-- The socket after a header that is complete. A packet without contents is complete with it. -/
def afterHeader (c : StreamCipher) (processIncoming : List ClientPacket → Bool)
    (s : InputSocket) : InputSocket :=
  let s := s.handleInputHeader c
  if s.closing then
    s
  else
    match s.recvWPct with
    | none => { s with closing := true }
    | some pkt => if pkt.space > 0 then s else s.handleInputPayload processIncoming pkt

/-- The socket after one more byte. -/
def receiveByte (c : StreamCipher) (processIncoming : List ClientPacket → Bool)
    (s : InputSocket) (b : UInt8) : InputSocket :=
  if s.closing then
    s
  else
    match s.recvWPct with
    | none =>
      let s := s.copyHeader [b]
      if s.headerSpace > 0 then s else s.afterHeader c processIncoming
    | some pkt =>
      let pkt := pkt.copy [b]
      let s := s.setRecvWPct pkt
      if pkt.space > 0 then s else s.handleInputPayload processIncoming pkt

/-- An open socket waits for the rest of a header or of the contents of a packet. -/
def Waiting (s : InputSocket) : Prop :=
  s.closing = false ∧
    match s.recvWPct with
    | none => 0 < s.headerSpace
    | some pkt => s.headerSpace = 0 ∧ 0 < pkt.space

/-- A socket between two calls. -/
def Ready (s : InputSocket) : Prop :=
  s.closing = true ∨ s.Waiting

theorem foldl_receiveByte_of_closing (h : s.closing = true) (l : List UInt8) :
    l.foldl (receiveByte c processIncoming) s = s := by
  induction l with
  | nil => rfl
  | cons b l ih => rw [foldl_cons, receiveByte, if_pos h, ih]

theorem space_copy (pkt : RecvWPct) (l : List UInt8) :
    (pkt.copy l).space = pkt.space - l.length := by
  rw [RecvWPct.space, RecvWPct.space, RecvWPct.copy, length_append]
  exact Nat.sub_add_eq _ _ _

theorem copy_copy (pkt : RecvWPct) (l l' : List UInt8) :
    (pkt.copy l).copy l' = pkt.copy (l ++ l') := by
  rw [RecvWPct.copy, RecvWPct.copy, RecvWPct.copy, append_assoc]

theorem headerSpace_copyHeader (l : List UInt8) :
    (s.copyHeader l).headerSpace = s.headerSpace - l.length := by
  rw [headerSpace, headerSpace, copyHeader, length_append]
  exact Nat.sub_add_eq _ _ _

theorem copyHeader_copyHeader (l l' : List UInt8) :
    (s.copyHeader l).copyHeader l' = s.copyHeader (l ++ l') := by
  rw [copyHeader, copyHeader, copyHeader, append_assoc]

theorem setRecvWPct_setRecvWPct (pkt pkt' : RecvWPct) :
    (s.setRecvWPct pkt).setRecvWPct pkt' = s.setRecvWPct pkt' :=
  rfl

theorem handleInputPayload_setRecvWPct (pkt pkt' : RecvWPct) :
    (s.setRecvWPct pkt).handleInputPayload processIncoming pkt' =
      s.handleInputPayload processIncoming pkt' :=
  rfl

variable (c processIncoming) {l : List UInt8} in
/-- A piece of the header. -/
theorem foldl_receiveByte_header (hclosing : s.closing = false) (hpkt : s.recvWPct = none)
    (hl : l ≠ []) (hlength : l.length ≤ s.headerSpace) :
    l.foldl (receiveByte c processIncoming) s =
      if (s.copyHeader l).headerSpace > 0 then s.copyHeader l
      else (s.copyHeader l).afterHeader c processIncoming := by
  induction l generalizing s with
  | nil => exact absurd rfl hl
  | cons b l ih =>
    have hbyte : receiveByte c processIncoming s b =
        if (s.copyHeader [b]).headerSpace > 0 then s.copyHeader [b]
        else (s.copyHeader [b]).afterHeader c processIncoming := by
      simp only [receiveByte, hclosing, hpkt, Bool.false_eq_true, if_false]
    rw [foldl_cons, hbyte]
    cases l with
    | nil => rw [foldl_nil]
    | cons b' l =>
      have hspace := headerSpace_copyHeader (s := s) [b]
      rw [length_cons, length_cons] at hlength
      rw [length_singleton] at hspace
      rw [if_pos (by omega), ih (s := s.copyHeader [b]) hclosing hpkt (cons_ne_nil _ _)
        (by rw [length_cons]; omega), copyHeader_copyHeader, singleton_append]

variable (c processIncoming) {pkt : RecvWPct} in
/-- A piece of the contents. -/
theorem foldl_receiveByte_payload (hclosing : s.closing = false) (hpkt : s.recvWPct = some pkt)
    (hl : l ≠ []) (hlength : l.length ≤ pkt.space) :
    l.foldl (receiveByte c processIncoming) s =
      if (pkt.copy l).space > 0 then s.setRecvWPct (pkt.copy l)
      else s.handleInputPayload processIncoming (pkt.copy l) := by
  induction l generalizing s pkt with
  | nil => exact absurd rfl hl
  | cons b l ih =>
    have hbyte : receiveByte c processIncoming s b =
        if (pkt.copy [b]).space > 0 then s.setRecvWPct (pkt.copy [b])
        else s.handleInputPayload processIncoming (pkt.copy [b]) := by
      simp only [receiveByte, hclosing, hpkt, Bool.false_eq_true, if_false,
        handleInputPayload_setRecvWPct]
    rw [foldl_cons, hbyte]
    cases l with
    | nil => rw [foldl_nil]
    | cons b' l =>
      have hspace := space_copy pkt [b]
      rw [length_cons, length_cons] at hlength
      rw [length_singleton] at hspace
      rw [if_pos (by omega), ih (s := s.setRecvWPct (pkt.copy [b])) hclosing rfl
        (cons_ne_nil _ _) (by rw [length_cons]; omega), copy_copy,
        singleton_append, setRecvWPct_setRecvWPct, handleInputPayload_setRecvWPct]

/-! ## Blocks -/

theorem headerSpace_handleInputHeader (s : InputSocket) :
    (s.handleInputHeader c).headerSpace = s.headerSpace := by
  unfold handleInputHeader
  dsimp only
  split <;> exact congrArg (worldHeaderSize - ·) (length_transform _ _ _)

theorem recvWPct_handleInputHeader {s : InputSocket} (h : (s.handleInputHeader c).closing = false) :
    ∃ pkt, (s.handleInputHeader c).recvWPct = some pkt := by
  unfold handleInputHeader at h ⊢
  dsimp only at h ⊢
  split at h
  · exact absurd h Bool.noConfusion
  · next hsize =>
    rw [if_neg hsize]
    exact ⟨_, rfl⟩

variable (processIncoming) in
theorem handleInputPayload_ready (s : InputSocket) (pkt : RecvWPct) :
    (s.handleInputPayload processIncoming pkt).Ready := by
  cases h : (s.handleInputPayload processIncoming pkt).closing with
  | true => exact .inl h
  | false => exact .inr ⟨h, Nat.succ_pos 3⟩

/-- What a call makes of a block : some bytes are worked off as they would be one by one, and the
rest only when the socket goes on. -/
def Worked (c : StreamCipher) (processIncoming : List ClientPacket → Bool) (s : InputSocket)
    (block : List UInt8) (r : Except InputSocket (InputSocket × List UInt8)) : Prop :=
  ∃ l rest, block = l ++ rest ∧ (block ≠ [] → l ≠ []) ∧
    (r = .ok (l.foldl (receiveByte c processIncoming) s, rest) ∧
        (l.foldl (receiveByte c processIncoming) s).Waiting ∨
      r = .error (l.foldl (receiveByte c processIncoming) s) ∧
        ((l.foldl (receiveByte c processIncoming) s).closing = true ∨
          rest = [] ∧ (l.foldl (receiveByte c processIncoming) s).Waiting))

/-- The piece of a block that fits. -/
theorem piece (block : List UInt8) (space : ℕ) :
    let n := if block.length > space then space else block.length
    (block.take n).length ≤ space ∧ ((block.take n).length < space → block.drop n = []) ∧
      (0 < space → block ≠ [] → block.take n ≠ []) := by
  intro n
  have hn : n = min space block.length := by
    simp only [n]
    split <;> omega
  refine ⟨?_, fun h => ?_, fun hspace hblock hnil => ?_⟩
  · rw [length_take]
    omega
  · rw [length_take] at h
    exact drop_eq_nil_of_le (by omega)
  · have hlength := length_pos_iff.2 hblock
    rw [take_eq_nil_iff] at hnil
    rcases hnil with hnil | hnil
    · omega
    · exact hblock hnil

/-- What closes or waits ends a turn. -/
theorem handleInputPayload_worked {t : InputSocket} (rest : List UInt8)
    (hl : l.foldl (receiveByte c processIncoming) s = t.handleInputPayload processIncoming pkt)
    (hnil : l ++ rest ≠ [] → l ≠ []) :
    Worked c processIncoming s (l ++ rest)
      (if (t.handleInputPayload processIncoming pkt).closing then
        .error (t.handleInputPayload processIncoming pkt)
      else .ok (t.handleInputPayload processIncoming pkt, rest)) := by
  refine ⟨l, rest, rfl, hnil, ?_⟩
  rw [hl]
  rcases handleInputPayload_ready processIncoming t pkt with h | h
  · rw [if_pos h]
    exact .inr ⟨rfl, .inl h⟩
  · rw [if_neg (by rw [h.1]; decide)]
    exact .inl ⟨rfl, h⟩

theorem receivePayload_worked (h : s.Waiting) (hpkt : s.recvWPct = some pkt) (block : List UInt8) :
    Worked c processIncoming s block (s.receivePayload processIncoming block) := by
  obtain ⟨hclosing, hwait⟩ := h
  rw [hpkt] at hwait
  obtain ⟨hheader, hspace⟩ := hwait
  obtain ⟨hle, hdrop, hne⟩ := piece block pkt.space
  rw [receivePayload, hpkt]
  simp only [handleInputPayload_setRecvWPct]
  generalize (if block.length > pkt.space then pkt.space else block.length) = n at hle hdrop hne
  by_cases hblock : block = []
  · subst hblock
    have hcopy : pkt.copy [] = pkt := by rw [RecvWPct.copy, append_nil]
    have hset : s.setRecvWPct pkt = s := by rw [setRecvWPct, ← hpkt]
    rw [take_nil, hcopy, if_pos hspace, hset]
    refine ⟨[], [], rfl, fun hnil => hnil, .inr ⟨rfl, .inr ⟨rfl, hclosing, ?_⟩⟩⟩
    rw [foldl_nil, hpkt]
    exact ⟨hheader, hspace⟩
  have hfold := foldl_receiveByte_payload c processIncoming hclosing
    hpkt (hne hspace hblock) hle
  by_cases hleft : (pkt.copy (block.take n)).space > 0
  · rw [if_pos hleft] at hfold
    rw [if_pos hleft]
    refine ⟨block.take n, block.drop n, (take_append_drop n block).symm,
      fun _ => hne hspace hblock, .inr ⟨by rw [hfold], .inr ⟨hdrop ?_, ?_⟩⟩⟩
    · rw [space_copy] at hleft
      omega
    · rw [hfold]
      exact ⟨hclosing, hheader, hleft⟩
  · rw [if_neg hleft] at hfold
    rw [if_neg hleft]
    have hworked := handleInputPayload_worked (block.drop n) hfold
      fun _ => hne hspace hblock
    rwa [take_append_drop] at hworked

/-- A packet without contents. -/
theorem receivePayload_of_full (hpkt : s.recvWPct = some pkt) (hspace : pkt.space = 0)
    (block : List UInt8) :
    s.receivePayload processIncoming block =
      if (s.handleInputPayload processIncoming pkt).closing then
        .error (s.handleInputPayload processIncoming pkt)
      else .ok (s.handleInputPayload processIncoming pkt, block) := by
  have hn : (if block.length > 0 then 0 else block.length) = 0 := by
    split <;> omega
  have hcopy : pkt.copy [] = pkt := by rw [RecvWPct.copy, append_nil]
  rw [receivePayload, hpkt]
  simp only [hspace, hn, take_zero, drop_zero, hcopy, gt_iff_lt, Nat.lt_irrefl, if_false,
    handleInputPayload_setRecvWPct]

theorem Worked.append {block : List UInt8} {r : Except InputSocket (InputSocket × List UInt8)}
    (h : Worked c processIncoming (l.foldl (receiveByte c processIncoming) s) block r) (hl : l ≠ []) :
    Worked c processIncoming s (l ++ block) r := by
  obtain ⟨l', rest, rfl, -, h⟩ := h
  refine ⟨l ++ l', rest, (append_assoc _ _ _).symm,
    fun _ hnil => hl (append_eq_nil_iff.1 hnil).1, ?_⟩
  rwa [foldl_append]

variable (c processIncoming) in
/-- A turn of the loop works off some bytes of the block. -/
theorem receive_worked (h : s.Waiting) {block : List UInt8} (hblock : block ≠ []) :
    Worked c processIncoming s block (s.receive c processIncoming block) := by
  cases hpkt : s.recvWPct with
  | some pkt =>
    have hheader : ¬s.headerSpace > 0 := by
      have hwait := h.2
      rw [hpkt] at hwait
      omega
    rw [receive, receiveHeader, if_neg hheader]
    exact receivePayload_worked h hpkt block
  | none =>
    have hspace : s.headerSpace > 0 := by
      have hwait := h.2
      rwa [hpkt] at hwait
    obtain ⟨hle, hdrop, hne⟩ := piece block s.headerSpace
    rw [receive, receiveHeader, if_pos hspace]
    simp only
    generalize (if block.length > s.headerSpace then s.headerSpace else block.length) = n
      at hle hdrop hne
    have hfold := foldl_receiveByte_header c processIncoming h.1
      hpkt (hne hspace hblock) hle
    have hsplit := (take_append_drop n block).symm
    by_cases hleft : (s.copyHeader (block.take n)).headerSpace > 0
    · rw [if_pos hleft] at hfold
      rw [if_pos hleft]
      refine ⟨block.take n, block.drop n, hsplit, fun _ => hne hspace hblock,
        .inr ⟨by rw [hfold]; rfl, .inr ⟨hdrop ?_, ?_⟩⟩⟩
      · rw [headerSpace_copyHeader] at hleft
        omega
      · rw [hfold]
        refine ⟨h.1, ?_⟩
        rw [show (s.copyHeader (block.take n)).recvWPct = none from hpkt]
        exact hleft
    rw [if_neg hleft] at hfold
    rw [if_neg hleft]
    cases hclosing : ((s.copyHeader (block.take n)).handleInputHeader c).closing with
    | true =>
      rw [afterHeader, if_pos hclosing] at hfold
      refine ⟨block.take n, block.drop n, hsplit, fun _ => hne hspace hblock,
        .inr ⟨by rw [hfold]; rfl, .inl (by rw [hfold, hclosing])⟩⟩
    | false =>
      obtain ⟨pkt, hnew⟩ := recvWPct_handleInputHeader hclosing
      have hheader : ((s.copyHeader (block.take n)).handleInputHeader c).headerSpace = 0 := by
        rw [headerSpace_handleInputHeader]
        omega
      simp only [afterHeader, hclosing, hnew, Bool.false_eq_true, if_false] at hfold
      change Worked c processIncoming s block
        (((s.copyHeader (block.take n)).handleInputHeader c).receivePayload processIncoming
          (block.drop n))
      by_cases hspace' : pkt.space > 0
      · rw [if_pos hspace'] at hfold
        rw [hsplit, take_append_drop, ← hfold]
        rw [← hfold] at hclosing hnew hheader
        have hwait : (List.foldl (receiveByte c processIncoming) s (block.take n)).Waiting := by
          refine ⟨hclosing, ?_⟩
          rw [hnew]
          exact ⟨hheader, hspace'⟩
        have hworked := (receivePayload_worked hwait hnew (block.drop n)).append (hne hspace hblock)
        rwa [take_append_drop] at hworked
      · rw [if_neg hspace'] at hfold
        rw [receivePayload_of_full hnew (by omega)]
        have hworked := handleInputPayload_worked (block.drop n) hfold
          fun _ => hne hspace hblock
        rwa [take_append_drop] at hworked

/-- The loop works off the block. -/
theorem inputLoop_eq_foldl {turns : ℕ} : ∀ {s : InputSocket} {block : List UInt8}, s.Waiting →
    block.length ≤ turns → inputLoop c processIncoming turns s block =
      block.foldl (receiveByte c processIncoming) s ∧
        (block.foldl (receiveByte c processIncoming) s).Ready := by
  induction turns with
  | zero =>
    intro s block h hlength
    obtain rfl := length_eq_zero_iff.1 (Nat.le_zero.1 hlength)
    exact ⟨rfl, .inr h⟩
  | succ turns ih =>
    intro s block h hlength
    rw [inputLoop]
    by_cases hblock : block = []
    · rw [if_pos hblock, hblock]
      exact ⟨rfl, .inr h⟩
    rw [if_neg hblock]
    obtain ⟨l, rest, rfl, hl, hr | hr⟩ := receive_worked c
      processIncoming h hblock
    · have hpos := length_pos_iff.2 (hl hblock)
      rw [length_append] at hlength
      rw [hr.1, foldl_append]
      exact ih hr.2 (by omega)
    · rw [hr.1, foldl_append]
      rcases hr.2 with hclosing | ⟨rfl, hwait⟩
      · rw [foldl_receiveByte_of_closing hclosing]
        exact ⟨rfl, .inl hclosing⟩
      · exact ⟨rfl, .inr hwait⟩

variable (c processIncoming) in
/-- A block is worked off as its bytes one by one. -/
theorem handleInputMissingData_eq_foldl (h : s.Ready) (block : List UInt8) :
    s.handleInputMissingData c processIncoming block =
      block.foldl (receiveByte c processIncoming) s ∧
        (block.foldl (receiveByte c processIncoming) s).Ready := by
  rw [handleInputMissingData]
  rcases h with h | h
  · rw [if_pos h, foldl_receiveByte_of_closing h]
    exact ⟨rfl, .inl h⟩
  · rw [if_neg (by rw [h.1]; decide)]
    exact inputLoop_eq_foldl h Nat.le.refl

variable (c processIncoming) in
/-- However the bytes are cut into blocks, the socket is the same after them. -/
theorem run_handleInputMissingData (h : s.Ready) (blocks : List (List UInt8)) :
    run (handleInputMissingData c processIncoming) s blocks =
      blocks.flatten.foldl (receiveByte c processIncoming) s := by
  induction blocks generalizing s with
  | nil => rfl
  | cons block blocks ih =>
    obtain ⟨heq, hready⟩ := handleInputMissingData_eq_foldl c
      processIncoming h block
    rw [run_cons, heq, ih hready, flatten_cons, foldl_append]

/-! ## Packets -/

/-- An open socket that waits for the next header. -/
def fresh (place : ℕ) (before : List ClientPacket) : InputSocket where
  decrypted := place
  incoming := before

/-- The socket once it has read the header of a packet. -/
def announced (place : ℕ) (before : List ClientPacket) (header : List UInt8) (pkt : RecvWPct) :
    InputSocket where
  worldHeader := header
  recvWPct := some pkt
  decrypted := place
  incoming := before

/-- The contents that follow a header. -/
theorem foldl_receiveByte_announced (place : ℕ) (before : List ClientPacket)
    (header : List UInt8) (opcodeNumber size : ℕ) (stream : List UInt8) :
    stream.foldl (receiveByte c processIncoming)
      (if (RecvWPct.mk opcodeNumber size []).space > 0 then
        announced place before header ⟨opcodeNumber, size, []⟩
      else (announced place before header ⟨opcodeNumber, size, []⟩).handleInputPayload
        processIncoming ⟨opcodeNumber, size, []⟩) =
      if stream.length < size then announced place before header ⟨opcodeNumber, size, stream⟩
      else (stream.drop size).foldl (receiveByte c processIncoming)
        ((announced place before header ⟨opcodeNumber, size, []⟩).handleInputPayload
          processIncoming ⟨opcodeNumber, size, stream.take size⟩) := by
  have hspace : (RecvWPct.mk opcodeNumber size []).space = size := rfl
  rw [hspace]
  by_cases hsize : size > 0
  · rw [if_pos hsize]
    have hpiece : ∀ l : List UInt8, l ≠ [] → l.length ≤ size →
        l.foldl (receiveByte c processIncoming)
            (announced place before header ⟨opcodeNumber, size, []⟩) =
          if size - l.length > 0 then announced place before header ⟨opcodeNumber, size, l⟩
          else (announced place before header ⟨opcodeNumber, size, []⟩).handleInputPayload
            processIncoming ⟨opcodeNumber, size, l⟩ := fun l hl hlength =>
      foldl_receiveByte_payload c processIncoming rfl
        (show (announced place before header ⟨opcodeNumber, size, []⟩).recvWPct = some _ from rfl)
        hl hlength
    by_cases hlength : stream.length < size
    · rw [if_pos hlength]
      by_cases hstream : stream = []
      · rw [hstream, foldl_nil]
      · rw [hpiece stream hstream (by omega), if_pos (by omega)]
    · rw [if_neg hlength]
      have htake : (stream.take size).length = size := by
        rw [length_take]
        omega
      have hne : stream.take size ≠ [] := length_pos_iff.1 (by omega)
      have hfold := hpiece (stream.take size) hne (by omega)
      rw [if_neg (by omega)] at hfold
      rw [← hfold, ← foldl_append, take_append_drop]
  · obtain rfl : size = 0 := by omega
    rw [if_neg hsize, if_neg (Nat.not_lt_zero _), drop_zero, take_zero]

theorem headerSize_eq {value : ℕ} (h : value < 2 ^ 32) :
    headerSize value = value / 2 ^ 13 % 2 ^ 16 := by
  have hmask : (0xFFFFFFFF ^^^ 0x1FFF : ℕ) >>> 13 = 2 ^ 19 - 1 := by decide
  have hlt : value >>> 13 < 2 ^ 19 := by
    omega
  rw [headerSize, Nat.shiftRight_and_distrib, hmask, Nat.and_two_pow_sub_one_of_lt_two_pow hlt,
    Nat.shiftRight_eq_div_pow]

theorem dropHighBytes_headerCmd (value : ℕ) : dropHighBytes (headerCmd value) = value % 2 ^ 13 := by
  have hcmd : headerCmd value = value % 2 ^ 13 := Nat.and_two_pow_sub_one_eq_mod value 13
  have hlt : value % 2 ^ 13 < 2 ^ 15 := by omega
  rw [hcmd]
  exact Nat.and_two_pow_sub_one_of_lt_two_pow hlt

/-- `header.size` -/
def codeSize (value : ℕ) : ℕ :=
  value / 2 ^ 13 % 2 ^ 16

theorem handleInputHeader_fresh (place : ℕ) (before : List ClientPacket) {header : List UInt8}
    (hheader : header.length = 4) {value : ℕ}
    (hvalue : value = ofBytes (transform c.decrypt place header)) :
    ((fresh place before).copyHeader header).handleInputHeader c =
      if codeSize value > maxIncomingSize then
        { fresh (place + 4) before with
          worldHeader := transform c.decrypt place header
          closing := true }
      else
        announced (place + 4) before (transform c.decrypt place header)
          ⟨value % 2 ^ 13, codeSize value, []⟩ := by
  have hlt : value < 2 ^ 32 := by
    have hlt := ofBytes_lt (transform c.decrypt place header)
    rw [length_transform, hheader, ← hvalue] at hlt
    exact hlt
  have hworld : ((fresh place before).copyHeader header).worldHeader = header := nil_append _
  have hplace : ((fresh place before).copyHeader header).decrypted = place := rfl
  simp only [handleInputHeader, hworld, hplace, length_transform, hheader, ← hvalue,
    headerSize_eq hlt, dropHighBytes_headerCmd]
  rfl

variable (c processIncoming) in
/-- The bytes after a header are the contents of its packet and what follows it. -/
theorem foldl_receiveByte_of_header (place : ℕ) (before : List ClientPacket) {header : List UInt8}
    (hheader : header.length = 4) {value : ℕ}
    (hvalue : value = ofBytes (transform c.decrypt place header)) (stream : List UInt8) :
    (header ++ stream).foldl (receiveByte c processIncoming) (fresh place before) =
      if codeSize value > maxIncomingSize then
        { fresh (place + 4) before with
          worldHeader := transform c.decrypt place header
          closing := true }
      else if stream.length < codeSize value then
        announced (place + 4) before (transform c.decrypt place header)
          ⟨value % 2 ^ 13, codeSize value, stream⟩
      else
        (stream.drop (codeSize value)).foldl (receiveByte c processIncoming)
          { fresh (place + 4)
              (before ++ [⟨value % 2 ^ 13, stream.take (codeSize value)⟩]) with
            closing := !processIncoming
              (before ++ [⟨value % 2 ^ 13, stream.take (codeSize value)⟩]) } := by
  have hne : header ≠ [] := length_pos_iff.1 (by omega)
  have hspace : (fresh place before).headerSpace = 4 := rfl
  have hfold := foldl_receiveByte_header c processIncoming
    (s := fresh place before) rfl rfl hne (by omega)
  have hleft : ((fresh place before).copyHeader header).headerSpace = 0 := by
    rw [headerSpace_copyHeader, hspace, hheader]
  rw [if_neg (by omega), afterHeader, handleInputHeader_fresh place before hheader hvalue] at hfold
  rw [foldl_append, hfold]
  by_cases hsize : codeSize value > maxIncomingSize
  · simp only [if_pos hsize]
    exact foldl_receiveByte_of_closing rfl stream
  · simp only [if_neg hsize]
    exact foldl_receiveByte_announced _ _ _ _ _ _

variable (c processIncoming) in
/-- The socket after a stream has handed over the packets of its framing. -/
theorem foldl_receiveByte_fresh (place : ℕ) (before : List ClientPacket) (stream : List UInt8) :
    (stream.foldl (receiveByte c processIncoming) (fresh place before)).incoming =
        before ++ (framingOf codeSize c processIncoming place before stream).packets ∧
      (stream.foldl (receiveByte c processIncoming) (fresh place before)).closing =
        (framingOf codeSize c processIncoming place before stream).closed := by
  rw [framingOf]
  by_cases hheader : stream.length < 4
  · rw [dif_pos hheader]
    by_cases hstream : stream = []
    · rw [hstream, foldl_nil]
      exact ⟨(append_nil _).symm, rfl⟩
    have hspace : (fresh place before).headerSpace = 4 := rfl
    rw [foldl_receiveByte_header c processIncoming rfl rfl hstream (by omega),
      if_pos (by rw [headerSpace_copyHeader]; omega)]
    exact ⟨(append_nil _).symm, rfl⟩
  rw [dif_neg hheader]
  have hfold := foldl_receiveByte_of_header c processIncoming place before
    (show (stream.take 4).length = 4 by rw [length_take]; omega) rfl (stream.drop 4)
  rw [take_append_drop] at hfold
  rw [hfold]
  generalize ofBytes (transform c.decrypt place (stream.take 4)) = value
  by_cases hsize : codeSize value > maxIncomingSize
  · rw [if_pos hsize, if_pos hsize]
    exact ⟨(append_nil _).symm, rfl⟩
  rw [if_neg hsize, if_neg hsize]
  by_cases hlength : (stream.drop 4).length < codeSize value
  · rw [if_pos hlength, if_pos hlength]
    exact ⟨(append_nil _).symm, rfl⟩
  rw [if_neg hlength, if_neg hlength]
  by_cases hprocess : processIncoming
      (before ++ [⟨value % 2 ^ 13, (stream.drop 4).take (codeSize value)⟩])
  · obtain ⟨hincoming, hclosing⟩ := foldl_receiveByte_fresh
      (place + 4) (before ++ [⟨value % 2 ^ 13, (stream.drop 4).take (codeSize value)⟩])
      ((stream.drop 4).drop (codeSize value))
    rw [if_pos hprocess, hprocess]
    refine ⟨hincoming.trans ?_, hclosing⟩
    rw [append_assoc, singleton_append]
  · rw [if_neg hprocess, eq_false_of_ne_true hprocess, foldl_receiveByte_of_closing rfl]
    exact ⟨rfl, rfl⟩
termination_by stream.length
decreasing_by
  simp only [length_drop]
  omega

end InputSocket

open InputSocket

variable {c : StreamCipher} {processIncoming : List ClientPacket → Bool}

variable (c processIncoming) in
theorem run_incoming_closing (blocks : List (List UInt8)) :
    (run (handleInputMissingData c processIncoming) {} blocks).incoming =
        (framingOf codeSize c processIncoming 0 [] blocks.flatten).packets ∧
      (run (handleInputMissingData c processIncoming) {} blocks).closing =
        (framingOf codeSize c processIncoming 0 [] blocks.flatten).closed := by
  have hready : (fresh 0 []).Ready := .inr ⟨rfl, Nat.succ_pos 3⟩
  have hrun := run_handleInputMissingData c processIncoming hready blocks
  obtain ⟨hincoming, hclosing⟩ := foldl_receiveByte_fresh c processIncoming 0 []
    blocks.flatten
  rw [← hrun] at hincoming hclosing
  exact ⟨hincoming, hclosing⟩

/-- The framing with a size of 16 bits is the one announced when no size above the limit gets
below it. -/
theorem framingOf_codeSize_iff (place : ℕ) (before : List ClientPacket) (stream : List UInt8) :
    ((framingOf codeSize c processIncoming place before stream).packets =
        (framingOf (· / 2 ^ 13) c processIncoming place before stream).packets ∧
      (framingOf codeSize c processIncoming place before stream).closed =
        (framingOf (· / 2 ^ 13) c processIncoming place before stream).closed) ↔
      ∀ size ∈ (framingOf (· / 2 ^ 13) c processIncoming place before stream).sizes,
        maxIncomingSize < size → maxIncomingSize < size % 2 ^ 16 := by
  rw [framingOf, framingOf]
  by_cases hheader : stream.length < 4
  · simp only [dif_pos hheader, true_and]
    exact ⟨fun _ size hsize => absurd hsize not_mem_nil, fun _ => trivial⟩
  simp only [dif_neg hheader]
  generalize ofBytes (transform c.decrypt place (stream.take 4)) = value
  by_cases hsize : value / 2 ^ 13 > maxIncomingSize
  · -- the announced framing ends here
    simp only [if_pos hsize, mem_singleton, forall_eq]
    by_cases hcode : codeSize value > maxIncomingSize
    · simp only [if_pos hcode, true_and]
      exact ⟨fun _ _ => hcode, fun _ => trivial⟩
    · rw [if_neg hcode]
      refine iff_of_false (fun ⟨hpackets, hclosed⟩ => ?_) fun h => hcode (h hsize)
      by_cases hlength : (stream.drop 4).length < codeSize value
      · rw [if_pos hlength] at hclosed
        exact Bool.noConfusion hclosed
      · rw [if_neg hlength] at hpackets
        split at hpackets
        · exact cons_ne_nil _ _ hpackets
        · exact cons_ne_nil _ _ hpackets
  · have hcode : codeSize value = value / 2 ^ 13 := by
      unfold maxIncomingSize at hsize
      exact Nat.mod_eq_of_lt (by omega)
    simp only [hcode, if_neg hsize]
    by_cases hlength : (stream.drop 4).length < value / 2 ^ 13
    · simp only [if_pos hlength, true_and, mem_singleton, forall_eq]
      exact ⟨fun _ h => absurd h hsize, fun _ => trivial⟩
    simp only [if_neg hlength]
    by_cases hprocess : processIncoming
        (before ++ [⟨value % 2 ^ 13, (stream.drop 4).take (value / 2 ^ 13)⟩])
    · have ih := framingOf_codeSize_iff (place + 4)
        (before ++ [⟨value % 2 ^ 13, (stream.drop 4).take (value / 2 ^ 13)⟩])
        ((stream.drop 4).drop (value / 2 ^ 13))
      simp only [if_pos hprocess, List.cons.injEq, true_and, forall_mem_cons]
      exact ih.trans ⟨fun h => ⟨fun h' => absurd h' hsize, h⟩, fun h => h.2⟩
    · simp only [if_neg hprocess, true_and, mem_singleton, forall_eq]
      exact ⟨fun _ h => absurd h hsize, fun _ => trivial⟩
termination_by stream.length
decreasing_by
  simp only [length_drop]
  omega

/-- The packets are those of the framing that the headers announce, however the bytes are cut into
blocks, exactly when no header of it has a size above the limit that is at most the limit in
16 bits. -/
theorem framed_iff (c : StreamCipher) (processIncoming : List ClientPacket → Bool)
    (stream : List UInt8) :
    Framed c processIncoming stream ↔
      ∀ size ∈ (framing c processIncoming stream).sizes,
        maxIncomingSize < size → maxIncomingSize < size % 2 ^ 16 := by
  rw [framing, ← framingOf_codeSize_iff]
  constructor
  · intro h
    have hbytes : (stream.map ([·])).flatten = stream := by
      rw [← flatMap_def, flatMap_singleton']
    obtain ⟨hincoming, hclosing⟩ := run_incoming_closing c processIncoming
      (stream.map ([·]))
    rw [hbytes] at hincoming hclosing
    have hframed := h (stream.map ([·])) hbytes fun block hblock => by
      obtain ⟨b, -, rfl⟩ := mem_map.1 hblock
      exact ⟨Nat.le.refl, Nat.succ_le_succ (Nat.zero_le _)⟩
    exact ⟨hincoming.symm.trans hframed.1, hclosing.symm.trans hframed.2⟩
  · rintro ⟨hpackets, hclosed⟩ blocks rfl -
    obtain ⟨hincoming, hclosing⟩ := run_incoming_closing c processIncoming
      blocks
    exact ⟨hincoming.trans hpackets, hclosing.trans hclosed⟩

/-- A header without a cipher that announces 65536 bytes : the code takes it for a packet without
contents. -/
theorem not_framed_65536 :
    ¬Framed ⟨fun _ b => b, fun _ b => b, fun _ _ => rfl⟩ (fun _ => true) [7, 0, 0, 32] := by
  intro h
  have hframed := (h [[7, 0, 0, 32]] rfl (by decide)).2
  rw [framing, framingOf] at hframed
  exact absurd hframed (by decide)

end MistyWorld
