import V6Emul.Foundation.Framing
import V6Emul.Ipc.RawFrame

/-!
# The server's transport

A client's bytes come out of a socket in pieces that are none of its doing, and the bytes
of a reply leave in others.  The server receives one request at a time, answers it, and
goes on until a receive brings nothing.
-/

namespace V6Emul

open Packed

/-! ## Receiving -/

/-- The pieces that the calls of `recv` will find; at an empty one the client is gone. -/
abbrev Incoming := List (List Byte)

def recvExact : Incoming → Nat → Option (List Byte) × Incoming
  | incoming, 0 => (some [], incoming)
  | [], _ + 1 => (none, [])
  | piece :: later, remaining + 1 =>
      if piece = [] then (none, later)
      else if piece.length ≤ remaining + 1 then
        let (bytes, rest) := recvExact later (remaining + 1 - piece.length)
        (bytes.map (piece ++ ·), rest)
      else (some (piece.take (remaining + 1)), piece.drop (remaining + 1) :: later)

def maxPayload : Nat := 64 * 1024 * 1024

def recv (incoming : Incoming) : List Byte × Incoming :=
  match recvExact incoming 4 with
  | (none, rest) => ([], rest)
  | (some len, rest) =>
      if ofLE len > maxPayload then ([], rest)
      else
        match recvExact rest (ofLE len) with
        | (none, rest) => ([], rest)
        | (some payload, rest) => (payload, rest)

def delivered (incoming : Incoming) : List Byte :=
  (incoming.takeWhile (· ≠ [])).flatten

@[simp] theorem delivered_nil : delivered [] = [] := rfl

@[simp] theorem delivered_closed (later : Incoming) : delivered ([] :: later) = [] := by
  simp [delivered]

theorem delivered_cons {piece : List Byte} (hpiece : piece ≠ []) (later : Incoming) :
    delivered (piece :: later) = piece ++ delivered later := by
  simp [delivered, hpiece]

theorem recvExact_of_le {incoming : Incoming} {n : Nat} (hle : n ≤ (delivered incoming).length) :
    ∃ rest, recvExact incoming n = (some ((delivered incoming).take n), rest) ∧
      delivered rest = (delivered incoming).drop n := by
  induction incoming generalizing n with
  | nil =>
      obtain rfl : n = 0 := by simpa using hle
      exact ⟨[], by simp [recvExact], rfl⟩
  | cons piece later ih =>
      cases n with
      | zero => exact ⟨piece :: later, by simp [recvExact], rfl⟩
      | succ remaining =>
          by_cases hpiece : piece = []
          · simp [hpiece] at hle
          · simp only [delivered_cons hpiece, List.length_append] at hle ⊢
            by_cases hshort : piece.length ≤ remaining + 1
            · obtain ⟨rest, hrest, hdel⟩ := ih (n := remaining + 1 - piece.length) (by omega)
              refine ⟨rest, ?_, ?_⟩
              · simp [recvExact, hpiece, hshort, hrest, List.take_append,
                  List.take_of_length_le hshort]
              · simp [hdel, List.drop_append, List.drop_of_length_le hshort]
            · have hlong : remaining + 1 - piece.length = 0 := by omega
              have hleft : piece.drop (remaining + 1) ≠ [] := by simpa using hshort
              refine ⟨piece.drop (remaining + 1) :: later, ?_, ?_⟩
              · simp [recvExact, hpiece, hshort, List.take_append, hlong]
              · simp [delivered_cons hleft, List.drop_append, hlong]

theorem recvExact_of_lt {incoming : Incoming} {n : Nat} (hlt : (delivered incoming).length < n) :
    (recvExact incoming n).1 = none := by
  induction incoming generalizing n with
  | nil =>
      obtain ⟨remaining, rfl⟩ := Nat.exists_eq_succ_of_ne_zero (Nat.ne_zero_of_lt hlt)
      rfl
  | cons piece later ih =>
      obtain ⟨remaining, rfl⟩ := Nat.exists_eq_succ_of_ne_zero (Nat.ne_zero_of_lt hlt)
      by_cases hpiece : piece = []
      · simp [recvExact, hpiece]
      · rw [delivered_cons hpiece, List.length_append] at hlt
        have hshort : piece.length ≤ remaining + 1 := by omega
        have hlater := ih (n := remaining + 1 - piece.length) (by omega)
        simp [recvExact, hpiece, hshort, hlater]

theorem recv_of_some {incoming : Incoming} {payload rest : List Byte}
    (h : unframe 4 maxPayload (delivered incoming) = some (payload, rest)) :
    ∃ incoming', recv incoming = (payload, incoming') ∧ delivered incoming' = rest := by
  rw [unframe] at h
  split at h
  · rename_i hlen
    obtain ⟨hfour, hpos, hmax, hle⟩ := hlen
    rw [Option.some_inj, Prod.mk.injEq] at h
    obtain ⟨rfl, rfl⟩ := h
    obtain ⟨rest, hinit, hrest⟩ := recvExact_of_le hfour
    obtain ⟨rest', hpayload, hrest'⟩ := recvExact_of_le (hrest ▸ hle)
    exact ⟨rest', by simp [recv, hinit, Nat.not_lt.mpr hmax, hpayload, hrest], by
      rw [hrest', hrest]⟩
  · simp at h

theorem recv_of_none {incoming : Incoming}
    (h : unframe 4 maxPayload (delivered incoming) = none) : (recv incoming).1 = [] := by
  by_cases hfour : 4 ≤ (delivered incoming).length
  · obtain ⟨rest, hinit, hrest⟩ := recvExact_of_le hfour
    rw [recv, hinit]
    by_cases hmax : ofLE ((delivered incoming).take 4) > maxPayload
    · simp [hmax]
    · simp only [hmax, if_false]
      by_cases hle : ofLE ((delivered incoming).take 4) ≤ (delivered rest).length
      · obtain ⟨rest', hpayload, -⟩ := recvExact_of_le hle
        have hzero : ofLE ((delivered incoming).take 4) = 0 := by
          by_contra hne
          rw [hrest] at hle
          rw [unframe, if_pos ⟨hfour, Nat.pos_of_ne_zero hne, Nat.not_lt.mp hmax, hle⟩] at h
          simp at h
        rw [hpayload, hzero, List.take_zero]
      · have hnone := recvExact_of_lt (Nat.not_le.mp hle)
        split <;> simp_all
  · have hnone := recvExact_of_lt (Nat.not_le.mp hfour)
    rw [recv]
    split <;> simp_all

/-! ## Sending -/

/-- How many bytes the next calls of `send` take; after these the connection is broken, or
takes all that it is given. -/
structure Outgoing where
  takes : List Nat
  broken : Bool

def sendExact : List Nat → Bool → List Byte → List Byte × Bool × Outgoing
  | takes, broken, [] => ([], true, ⟨takes, broken⟩)
  | [], broken, bytes => if broken then ([], false, ⟨[], true⟩) else (bytes, true, ⟨[], false⟩)
  | n :: takes, broken, b :: bytes =>
      if n = 0 then ([], false, ⟨[], true⟩)
      else
        let (sent, ok, outgoing) := sendExact takes broken ((b :: bytes).drop n)
        ((b :: bytes).take n ++ sent, ok, outgoing)

def Outgoing.send (outgoing : Outgoing) (bytes : List Byte) : List Byte × Bool × Outgoing :=
  sendExact outgoing.takes outgoing.broken bytes

def Outgoing.Sound (outgoing : Outgoing) : Prop :=
  outgoing.broken = false ∧ 0 ∉ outgoing.takes

def Outgoing.Dead (outgoing : Outgoing) : Prop :=
  outgoing.broken = true ∧ outgoing.takes = []

theorem sendExact_cases (takes : List Nat) (broken : Bool) (bytes : List Byte) :
    ((sendExact takes broken bytes).1 = bytes ∧ (sendExact takes broken bytes).2.1 = true) ∨
      ((sendExact takes broken bytes).1 <+: bytes ∧ (sendExact takes broken bytes).2.1 = false ∧
        (sendExact takes broken bytes).2.2.Dead) := by
  induction takes generalizing bytes with
  | nil =>
      cases bytes with
      | nil => simp [sendExact]
      | cons b bytes => cases broken <;> simp [sendExact, Outgoing.Dead]
  | cons n takes ih =>
      cases bytes with
      | nil => simp [sendExact]
      | cons b bytes =>
          by_cases hn : n = 0
          · simp [sendExact, hn, Outgoing.Dead]
          · rcases ih ((b :: bytes).drop n) with ⟨hall, hok⟩ | ⟨hsome, hok, hdead⟩
            · exact .inl (by simp [sendExact, hn, hall, hok])
            · refine .inr ?_
              simp only [sendExact, hn, if_false]
              refine ⟨?_, hok, hdead⟩
              conv_rhs => rw [← List.take_append_drop n (b :: bytes)]
              exact (List.prefix_append_right_inj _).mpr hsome

theorem send_of_sound {outgoing : Outgoing} (hsound : outgoing.Sound) (bytes : List Byte) :
    (outgoing.send bytes).1 = bytes ∧ (outgoing.send bytes).2.1 = true ∧
      (outgoing.send bytes).2.2.Sound := by
  obtain ⟨takes, broken⟩ := outgoing
  obtain ⟨rfl, htakes⟩ : broken = false ∧ 0 ∉ takes := hsound
  simp only [Outgoing.send]
  induction takes generalizing bytes with
  | nil => cases bytes <;> simp [sendExact, Outgoing.Sound]
  | cons n takes ih =>
      have hn : n ≠ 0 := fun h => by simp [h] at htakes
      have hrest : 0 ∉ takes := fun h => htakes (List.mem_cons_of_mem n h)
      cases bytes with
      | nil => exact ⟨rfl, rfl, rfl, htakes⟩
      | cons b bytes =>
          obtain ⟨hall, hok, hsound⟩ := ih ((b :: bytes).drop n) hrest
          simp only [sendExact, hn, if_false]
          exact ⟨by rw [hall, List.take_append_drop], hok, hsound⟩

theorem send_of_dead {outgoing : Outgoing} (hdead : outgoing.Dead) (bytes : List Byte) :
    (outgoing.send bytes).1 = [] ∧ (outgoing.send bytes).2.2.Dead := by
  obtain ⟨takes, broken⟩ := outgoing
  obtain ⟨rfl, rfl⟩ : broken = true ∧ takes = [] := hdead
  cases bytes <;> simp [Outgoing.send, sendExact, Outgoing.Dead]

/-! ## Replies -/

structure Msgpack where
  bytes : List Byte
  admitted : Admitted uint32Max bytes

def encode (msgpack : Msgpack) : List Byte :=
  toLE 4 msgpack.bytes.length ++ msgpack.bytes

structure FrameView where
  width : BitVec 32
  height : BitVec 32
  pixels : List Byte
  fits : pixels.length ≤ rawFrameBodyMax

inductive ServerReply where
  | json (msgpack : Msgpack)
  | rawFrame (frame : Option FrameView)

/-- `no frame available` -/
def noFrameAvailable : List Byte :=
  [0x6e, 0x6f, 0x20, 0x66, 0x72, 0x61, 0x6d, 0x65, 0x20,
   0x61, 0x76, 0x61, 0x69, 0x6c, 0x61, 0x62, 0x6c, 0x65]

/-- `frame encoding failed` -/
def frameEncodingFailed : List Byte :=
  [0x66, 0x72, 0x61, 0x6d, 0x65, 0x20, 0x65, 0x6e, 0x63, 0x6f, 0x64, 0x69, 0x6e, 0x67, 0x20,
   0x66, 0x61, 0x69, 0x6c, 0x65, 0x64]

/-- The bytes to send, and the vector of the raw messages, which the server keeps. -/
def ServerReply.encode (rawMsg : List Byte) : ServerReply → Option (List Byte × List Byte)
  | .json msgpack => some (V6Emul.encode msgpack, rawMsg)
  | .rawFrame (some frame) => do
      let (ok, rawMsg) ← encodeRawFrame rawMsg frame.width frame.height (.bytes frame.pixels)
      let (_, rawMsg) ← if ok then some (ok, rawMsg)
        else encodeRawFrameError rawMsg .internalError frameEncodingFailed
      return (rawMsg, rawMsg)
  | .rawFrame none => do
      let (_, rawMsg) ← encodeRawFrameError rawMsg .frameUnavailable noFrameAvailable
      return (rawMsg, rawMsg)

/-- What the client is to find in the frame of a reply. -/
def ServerReply.payload : ServerReply → List Byte
  | .json msgpack => msgpack.bytes
  | .rawFrame (some frame) =>
      (RawFrameHeader.mk .frame frame.width frame.height).toBytes ++ frame.pixels
  | .rawFrame none =>
      (RawFrameHeader.mk .errorResponse RawFrameErrorCode.frameUnavailable.toU32 18).toBytes ++
        noFrameAvailable

theorem ServerReply.admitted_payload (reply : ServerReply) : Admitted uint32Max reply.payload := by
  rcases reply with msgpack | ⟨_ | frame⟩
  · exact msgpack.admitted
  · constructor <;> simp [payload, uint32Max, noFrameAvailable]
  · have hfits := frame.fits
    rw [rawFrameBodyMax, rawFrameHeaderSize, uint32Max] at hfits
    constructor <;>
      simp only [payload, List.length_append, RawFrameHeader.length_toBytes, uint32Max] <;> omega

theorem ServerReply.encode_eq (rawMsg : List Byte) (reply : ServerReply) :
    ∃ rawMsg', reply.encode rawMsg = some (frame 4 reply.payload, rawMsg') := by
  rcases reply with msgpack | ⟨_ | frame⟩
  · exact ⟨rawMsg, rfl⟩
  · have hmade := @makeMessage_of_le rawMsg .errorResponse
      RawFrameErrorCode.frameUnavailable.toU32 (BitVec.ofNat 32 noFrameAvailable.length)
      noFrameAvailable (by decide)
    refine ⟨frame 4 (ServerReply.rawFrame none).payload, ?_⟩
    rw [encode, encodeRawFrameError, hmade]
    rfl
  · have hmade := makeMessage_of_le rawMsg .frame frame.width frame.height frame.fits
    refine ⟨Packed.frame 4 (ServerReply.rawFrame (some frame)).payload, ?_⟩
    rw [encode, encodeRawFrame, hmade]
    simp only [payload, Packed.frame, List.length_append, RawFrameHeader.length_toBytes]
    rfl

/-! ## The server -/

inductive After where
  | next
  | nextIfSent
  | exit
  deriving DecidableEq

/-- How the server answers: everything between `Recv` and `Send`. -/
abbrev Respond (σ : Type) := σ → List Byte → σ × ServerReply × After

structure ClientSession (σ : Type) where
  hardware : σ
  rawMsg : List Byte
  incoming : Incoming
  outgoing : Outgoing
  /-- what has reached the client -/
  wire : List Byte

inductive LoopStatus where
  | serving
  | disconnected
  | exiting
  deriving DecidableEq

def ServerReply.send {σ : Type} (reply : ServerReply) (after : After) (s : ClientSession σ) :
    LoopStatus × ClientSession σ :=
  match reply.encode s.rawMsg with
  | none => (.disconnected, s)
  | some (bytes, rawMsg) =>
      let (sent, ok, outgoing) := s.outgoing.send bytes
      (match after with
        | .next => .serving
        | .nextIfSent => if ok then .serving else .disconnected
        | .exit => .exiting,
       { s with rawMsg, outgoing, wire := s.wire ++ sent })

def serveOne {σ : Type} (respond : Respond σ) (s : ClientSession σ) :
    LoopStatus × ClientSession σ :=
  let (payload, incoming) := recv s.incoming
  if payload = [] then (.disconnected, { s with incoming })
  else
    let (hardware, reply, after) := respond s.hardware payload
    reply.send after { s with hardware, incoming }

def serve {σ : Type} (respond : Respond σ) : Nat → ClientSession σ → LoopStatus × ClientSession σ
  | 0, s => (.serving, s)
  | fuel + 1, s =>
      match serveOne respond s with
      | (.serving, s) => serve respond fuel s
      | ended => ended

/-! ## What a session amounts to -/

def requests (bytes : List Byte) : List (List Byte) := payloads 4 maxPayload bytes

def received (wire : List Byte) : List (List Byte) := payloads 4 uint32Max wire

/-- The requests are answered one after another, up to the one that ends the server. -/
def answers {σ : Type} (respond : Respond σ) : σ → List (List Byte) → σ × List (List Byte)
  | st, [] => (st, [])
  | st, request :: later =>
      let (st, reply, after) := respond st request
      if after = .exit then (st, [reply.payload])
      else
        let (st, replies) := answers respond st later
        (st, reply.payload :: replies)

section

variable {σ : Type} {respond : Respond σ}

/-- What a client has got of the frames that were meant for it: all of them, or a part that
nothing is added to any more. -/
def Gets (outgoing : Outgoing) (wire frames : List Byte) : Prop :=
  wire = frames ∨ wire <+: frames ∧ outgoing.Dead

theorem Gets.send {outgoing : Outgoing} {wire frames : List Byte}
    (hgets : Gets outgoing wire frames) (bytes : List Byte) :
    Gets (outgoing.send bytes).2.2 (wire ++ (outgoing.send bytes).1) (frames ++ bytes) := by
  rcases hgets with rfl | ⟨hinit, hdead⟩
  · rcases sendExact_cases outgoing.takes outgoing.broken bytes with ⟨hall, -⟩ | ⟨hsome, -, hdead⟩
    · exact .inl (congrArg (wire ++ ·) hall)
    · exact .inr ⟨(List.prefix_append_right_inj wire).mpr hsome, hdead⟩
  · obtain ⟨hnone, hdead⟩ := send_of_dead hdead bytes
    rw [hnone, List.append_nil]
    exact .inr ⟨hinit.trans (List.prefix_append frames bytes), hdead⟩

theorem Outgoing.Sound.not_dead {outgoing : Outgoing} (hsound : outgoing.Sound) :
    ¬outgoing.Dead := by
  rintro ⟨hbroken, -⟩
  simp [hsound.1] at hbroken

theorem serveOne_of_none {s : ClientSession σ}
    (h : unframe 4 maxPayload (delivered s.incoming) = none) :
    ∃ incoming, serveOne respond s = (.disconnected, { s with incoming }) :=
  ⟨(recv s.incoming).2, by simp [serveOne, recv_of_none h]⟩

/-- The session when a request has been taken off the stream and its reply has gone out. -/
def ClientSession.answered (s : ClientSession σ) (hardware : σ) (reply : ServerReply)
    (rawMsg : List Byte) (incoming : Incoming) : ClientSession σ where
  hardware := hardware
  rawMsg := rawMsg
  incoming := incoming
  outgoing := (s.outgoing.send (frame 4 reply.payload)).2.2
  wire := s.wire ++ (s.outgoing.send (frame 4 reply.payload)).1

theorem serveOne_of_some {s : ClientSession σ} {request rest : List Byte} {hardware : σ}
    {reply : ServerReply} {after : After}
    (h : unframe 4 maxPayload (delivered s.incoming) = some (request, rest))
    (hrespond : respond s.hardware request = (hardware, reply, after)) :
    ∃ rawMsg incoming, delivered incoming = rest ∧
      serveOne respond s =
        (match after with
          | .next => .serving
          | .nextIfSent =>
              if (s.outgoing.send (frame 4 reply.payload)).2.1 then .serving else .disconnected
          | .exit => .exiting,
        s.answered hardware reply rawMsg incoming) := by
  obtain ⟨incoming, hrecv, hdel⟩ := recv_of_some h
  obtain ⟨rawMsg, hencode⟩ := reply.encode_eq s.rawMsg
  have hpos := (unframe_eq_some h).2.pos
  refine ⟨rawMsg, incoming, hdel, ?_⟩
  rw [serveOne, hrecv]
  simp only [List.ne_nil_of_length_pos hpos, if_false, hrespond, ServerReply.send, hencode,
    ClientSession.answered]
  cases after <;> rfl

/-- A session has ended with these requests handled; if nothing breaks, that is all of them. -/
structure Ends (respond : Respond σ) (s : ClientSession σ) (frames : List Byte)
    (handled : List (List Byte)) (ended : LoopStatus × ClientSession σ) : Prop where
  inOrder : handled <+: requests (delivered s.incoming)
  finished : ended.1 ≠ .serving
  hardware : ended.2.hardware = (answers respond s.hardware handled).1
  gets : Gets ended.2.outgoing ended.2.wire
    (frames ++ (answers respond s.hardware handled).2.flatMap (frame 4))
  all : s.outgoing.Sound → ended.2.outgoing.Sound ∧
    answers respond s.hardware handled =
      answers respond s.hardware (requests (delivered s.incoming))

section Step

variable {s : ClientSession σ} {frames rawMsg request : List Byte} {incoming : Incoming}
  {hardware : σ} {reply : ServerReply} {after : After}

theorem Ends.last {status : LoopStatus} (hgets : Gets s.outgoing s.wire frames)
    (hrequests : requests (delivered s.incoming) = request :: requests (delivered incoming))
    (hrespond : respond s.hardware request = (hardware, reply, after))
    (hstatus : status ≠ .serving) (hbreaks : after ≠ .exit → ¬s.outgoing.Sound) :
    Ends respond s frames [request] (status, s.answered hardware reply rawMsg incoming) where
  inOrder := by simp [hrequests]
  finished := hstatus
  hardware := by simp [answers, hrespond, ClientSession.answered]
  gets := by
    simpa [answers, hrespond, ClientSession.answered] using hgets.send (frame 4 reply.payload)
  all hsound := by
    have hexit : after = .exit := by
      by_contra hne
      exact hbreaks hne hsound
    exact ⟨(send_of_sound hsound _).2.2, by simp [hrequests, answers, hrespond, hexit]⟩

theorem Ends.next {handled : List (List Byte)} {ended : LoopStatus × ClientSession σ}
    (hrequests : requests (delivered s.incoming) = request :: requests (delivered incoming))
    (hrespond : respond s.hardware request = (hardware, reply, after)) (hafter : after ≠ .exit)
    (hends : Ends respond (s.answered hardware reply rawMsg incoming)
      (frames ++ frame 4 reply.payload) handled ended) :
    Ends respond s frames (request :: handled) ended := by
  have hanswers : ∀ later, answers respond s.hardware (request :: later) =
      ((answers respond hardware later).1,
        reply.payload :: (answers respond hardware later).2) := by
    intro later
    simp [answers, hrespond, hafter]
  constructor
  · rw [hrequests]
    exact (List.prefix_cons_inj request).mpr hends.inOrder
  · exact hends.finished
  · rw [hanswers]
    exact hends.hardware
  · rw [hanswers, List.flatMap_cons, ← List.append_assoc]
    exact hends.gets
  · intro hsound
    obtain ⟨hsound', hall⟩ := hends.all (send_of_sound hsound _).2.2
    refine ⟨hsound', ?_⟩
    simp only [ClientSession.answered] at hall
    rw [hrequests, hanswers, hanswers, hall]

end Step

theorem serve_ends {fuel : Nat} {s : ClientSession σ} {frames : List Byte}
    (hfuel : (delivered s.incoming).length < fuel) (hgets : Gets s.outgoing s.wire frames) :
    ∃ handled, Ends respond s frames handled (serve respond fuel s) := by
  induction fuel generalizing s frames with
  | zero => exact absurd hfuel (Nat.not_lt_zero _)
  | succ fuel ih =>
      cases hnext : unframe 4 maxPayload (delivered s.incoming) with
      | none =>
          obtain ⟨incoming, hone⟩ :
              ∃ incoming, serveOne respond s = (.disconnected, { s with incoming }) :=
            serveOne_of_none hnext
          have hnil : requests (delivered s.incoming) = [] := payloads_of_none hnext
          refine ⟨[], by simp, ?_, ?_, ?_, ?_⟩ <;> simp [serve, hone, answers, hgets, hnil]
      | some next =>
          obtain ⟨request, rest⟩ := next
          rcases hrespond : respond s.hardware request with ⟨hardware, reply, after⟩
          obtain ⟨rawMsg, incoming, rfl, hone⟩ := serveOne_of_some hnext hrespond
          have hrequests : requests (delivered s.incoming) =
              request :: requests (delivered incoming) := payloads_of_some hnext
          have hshort := unframe_length_lt hnext
          have hgoes : after ≠ .exit → ∃ handled, Ends respond s frames handled
              (serve respond fuel (s.answered hardware reply rawMsg incoming)) := by
            intro hafter
            obtain ⟨handled, hends⟩ := ih (s := s.answered hardware reply rawMsg incoming)
              (by simp only [ClientSession.answered]; omega) (hgets.send (frame 4 reply.payload))
            exact ⟨_, hends.next hrequests hrespond hafter⟩
          cases after with
          | next => simpa [serve, hone] using hgoes (by simp)
          | exit =>
              have hends : Ends respond s frames [request]
                  (.exiting, s.answered hardware reply rawMsg incoming) :=
                .last hgets hrequests hrespond (by simp) (by simp)
              simpa [serve, hone] using ⟨_, hends⟩
          | nextIfSent =>
              cases hok : (s.outgoing.send (frame 4 reply.payload)).2.1 with
              | true => simpa [serve, hone, hok] using hgoes (by simp)
              | false =>
                  have hbreaks : ¬s.outgoing.Sound := fun hsound => by
                    simp [(send_of_sound hsound _).2.1] at hok
                  have hends : Ends respond s frames [request]
                      (.disconnected, s.answered hardware reply rawMsg incoming) :=
                    .last hgets hrequests hrespond (by simp) (fun _ => hbreaks)
                  simpa [serve, hone, hok] using ⟨_, hends⟩

/-- One client's session from its first request on. -/
def runSession (respond : Respond σ) (hardware : σ) (rawMsg : List Byte) (incoming : Incoming)
    (outgoing : Outgoing) : LoopStatus × ClientSession σ :=
  serve respond ((delivered incoming).length + 1) ⟨hardware, rawMsg, incoming, outgoing, []⟩

theorem Gets.received_prefix {outgoing : Outgoing} {wire : List Byte} {replies : List (List Byte)}
    (hgets : Gets outgoing wire (replies.flatMap (frame 4)))
    (hadm : ∀ reply ∈ replies, Admitted uint32Max reply) :
    received wire <+: replies ∧ (outgoing.Sound → received wire = replies) := by
  have hlimit : uint32Max < 256 ^ 4 := by decide
  have hempty : payloads 4 uint32Max [] = [] := payloads_of_none (by simp [unframe])
  have hall := payloads_frames hlimit hadm []
  rw [List.append_nil, hempty, List.append_nil] at hall
  rcases hgets with rfl | ⟨hinit, hdead⟩
  · exact ⟨by rw [received, hall], fun _ => hall⟩
  · refine ⟨?_, fun hsound => absurd hdead hsound.not_dead⟩
    have hpart := payloads_prefix (w := 4) hlimit hinit
    rwa [hall] at hpart

theorem admitted_answers (st : σ) (handled : List (List Byte)) :
    ∀ reply ∈ (answers respond st handled).2, Admitted uint32Max reply := by
  induction handled generalizing st with
  | nil => simp [answers]
  | cons request later ih =>
      rcases hrespond : respond st request with ⟨hardware, reply, after⟩
      rw [answers, hrespond]
      by_cases hafter : after = .exit
      · simp [hafter, reply.admitted_payload]
      · simpa [hafter, reply.admitted_payload] using ih hardware

/--
However a client's bytes are cut into pieces and however its replies leave, the server
handles its requests in their order, each once, and stops; what the client gets are replies
to its requests in their order, none missing before the last.  If every call of `send` takes
something, it gets the reply to every request.
-/
theorem session_answered (respond : Respond σ) (hardware : σ) (rawMsg : List Byte)
    (incoming : Incoming) (outgoing : Outgoing) :
    let ended := runSession respond hardware rawMsg incoming outgoing
    ended.1 ≠ .serving ∧
    (∃ handled, handled <+: requests (delivered incoming) ∧
      ended.2.hardware = (answers respond hardware handled).1 ∧
      received ended.2.wire <+: (answers respond hardware handled).2) ∧
    (outgoing.Sound →
      ended.2.hardware = (answers respond hardware (requests (delivered incoming))).1 ∧
      received ended.2.wire = (answers respond hardware (requests (delivered incoming))).2) ∧
    ∀ sent rest, (∀ request ∈ sent, Admitted maxPayload request) →
      delivered incoming = sent.flatMap (frame 4) ++ rest →
      requests (delivered incoming) = sent ++ requests rest := by
  intro ended
  obtain ⟨handled, hends⟩ : ∃ handled,
      Ends respond ⟨hardware, rawMsg, incoming, outgoing, []⟩ [] handled ended :=
    serve_ends (Nat.lt_succ_self _) (.inl rfl)
  have hgets := hends.gets
  rw [List.nil_append] at hgets
  obtain ⟨hinit, hwhole⟩ := hgets.received_prefix (admitted_answers hardware handled)
  refine ⟨hends.finished, ⟨handled, hends.inOrder, hends.hardware, hinit⟩, fun hsound => ?_, ?_⟩
  · obtain ⟨hsound', hall⟩ := hends.all hsound
    simp only at hall
    rw [← hall]
    exact ⟨hends.hardware, hwhole hsound'⟩
  · intro sent rest hadm hbytes
    rw [hbytes]
    exact payloads_frames (by decide) hadm rest

end

end V6Emul
