import Mathlib

/-!
Requests and replies over a stream of bytes. Each message is a frame, that is its
length in four bytes, the highest first, and then the bytes that encode it. A
reader waits until it has a whole frame, and then has what was written
(`scan_frame`, `scan_part`). On a connection whose server answers the frames that
it reads one after the other, at most once each, a reply names no request; but if
a request is only written when the ones before are answered, and their replies
read, then the reply that is read is the one to the last request (`Awaiting.take`).
-/
namespace Crayon.Exchange
universe u v w x

/-! ### Frames -/

/-- The number that four bytes stand for. -/
def word (a b c d : UInt8) : Nat := ((a.toNat * 256 + b.toNat) * 256 + c.toNat) * 256 + d.toNat

def header (n : Nat) : List UInt8 := [.ofNat (n / 256 / 256 / 256),.ofNat (n / 256 / 256),.ofNat (n / 256),.ofNat n]

def frame (body : List UInt8) : List UInt8 := header body.length ++ body

/-- What a reader makes of the bytes that it has. -/
inductive Scan where
  | wait
  /-- The stream has ended before the length of a frame. -/
  | closed
  /-- The stream has ended within a frame. -/
  | cut
  | oversized
  | body (bytes rest : List UInt8)
deriving DecidableEq

/-- Whether the stream has `ended` only matters when bytes are missing. -/
def scan (limit : Nat) (ended : Bool) : List UInt8 → Scan
  | a :: b :: c :: d :: rest =>
    if limit < word a b c d then .oversized
    else if rest.length < word a b c d then (if ended then .cut else .wait)
    else .body (rest.take (word a b c d)) (rest.drop (word a b c d))
  | _ => if ended then .closed else .wait

theorem word_header {n : Nat} (small : n < 2^32) :
    word (.ofNat (n / 256 / 256 / 256)) (.ofNat (n / 256 / 256)) (.ofNat (n / 256)) (.ofNat n) = n := by
  simp only [word,UInt8.toNat_ofNat']
  omega

section
variable {limit : Nat} {ended : Bool} {body : List UInt8}

/-- A whole frame is read as it was written. -/
theorem scan_frame (ended : Bool) (small : limit < 2^32) (fits : body.length ≤ limit) (rest : List UInt8) :
    scan limit ended (frame body ++ rest) = .body body rest := by
  have length := word_header (show body.length < 2^32 by omega)
  simp only [frame,header,List.cons_append,List.nil_append,scan,length]
  rw [if_neg (by omega),if_neg (by simp),List.take_left,List.drop_left]

/-- A part of a frame is not read. -/
theorem scan_part (small : limit < 2^32) (fits : body.length ≤ limit) {part rest : List UInt8}
    (whole : frame body = part ++ rest) (more : rest ≠ []) (bytes left : List UInt8) : scan limit ended part ≠ .body bytes left := by
  have short : part.length < body.length + 4 := by
    have length := congrArg List.length whole
    have pos := List.length_pos_iff.mpr more
    simp only [frame,header,List.length_append,List.length_cons,List.length_nil] at length
    omega
  intro read
  match part,read with
  | a :: b :: c :: d :: tail,read =>
    have length := word_header (show body.length < 2^32 by omega)
    simp only [frame,header,List.cons_append,List.nil_append,List.cons.injEq] at whole
    obtain ⟨rfl,rfl,rfl,rfl,_⟩ := whole
    simp only [List.length_cons] at short
    simp only [scan,length] at read
    rw [if_neg (by omega),if_pos (by omega)] at read
    cases ended <;> cases read
  | [],read | [_],read | [_,_],read | [_,_,_],read => cases ended <;> cases read

end

/-- How messages are turned into bytes and back. -/
structure Encoding (ε : Type u) (α : Type v) where
  serialize : α → Except ε (List UInt8)
  deserialize : List UInt8 → Except ε α
  round_trip : ∀ a bytes, serialize a = .ok bytes → deserialize bytes = .ok a

/-- These bytes are the frame of a message. -/
def Encoding.Frames {ε : Type u} {α : Type v} (encoding : Encoding ε α) (limit : Nat) (a : α) (bytes : List UInt8) : Prop :=
  ∃ body, encoding.serialize a = .ok body ∧ body.length ≤ limit ∧ bytes = frame body

theorem Encoding.Frames.ne_nil {ε : Type u} {α : Type v} {encoding : Encoding ε α} {limit : Nat} {a : α} {bytes : List UInt8}
    (frames : encoding.Frames limit a bytes) : bytes ≠ [] := by
  obtain ⟨body,_,_,rfl⟩ := frames
  simp [frame,header]

/-! ### Connections -/

/-- Where the server is with a connection. -/
inductive Handler (α : Type v) where
  | reading
  | serving (request : α)
  | writing (rest : List UInt8)
  | closed

/-- A connection: the bytes that are on the way to the server and back, and what has happened on it so far, that is the
    requests that were begun, with who asked them, and the replies that were produced. -/
structure Connection (κ : Type u) (α : Type v) (β : Type w) where
  up : List UInt8
  down : List UInt8
  handler : Handler α
  asked : List (κ × α)
  answered : List β

namespace Connection
variable {κ : Type u} {α : Type v} {β : Type w} {ε : Type x}

def new : Connection κ α β := ⟨[],[],.reading,[],[]⟩

/-- A request is begun. -/
def ask (c : Connection κ α β) (who : κ) (request : α) : Connection κ α β := { c with asked := c.asked ++ [(who,request)] }

/-- A part of a request is written. -/
def send (c : Connection κ α β) (part : List UInt8) : Connection κ α β := { c with up := c.up ++ part }

/-- The part of the replies that is not read yet. -/
def take (c : Connection κ α β) (rest : List UInt8) : Connection κ α β := { c with down := rest }

variable (requests : Encoding ε α) (replies : Encoding ε β) (limit : Nat) (Produces : α → β → Prop)

/-- What the server does on a connection at a time. -/
inductive Serves (c : Connection κ α β) : Connection κ α β → Prop where
  | read {ended : Bool} {body rest : List UInt8} {request : α} (reading : c.handler = .reading)
      (got : scan limit ended c.up = .body body rest) (decoded : requests.deserialize body = .ok request) :
      Serves c { c with up := rest, handler := .serving request }
  | answer {request : α} {reply : β} {bytes : List UInt8} (serving : c.handler = .serving request)
      (produces : Produces request reply) (frames : replies.Frames limit reply bytes) :
      Serves c { c with handler := .writing bytes, answered := c.answered ++ [reply] }
  | write {part rest : List UInt8} (writing : c.handler = .writing (part ++ rest)) :
      Serves c { c with down := c.down ++ part, handler := if rest = [] then .reading else .writing rest }
  | close : Serves c { c with handler := .closed }

/-- The replies are those to the requests, one to one and in their order. -/
def Even (asked : List (κ × α)) (answered : List β) : Prop := List.Forall₂ (fun ask reply => Produces ask.2 reply) asked answered

/-- All requests are answered, and all replies are read. -/
structure Idle (c : Connection κ α β) : Prop where
  up : c.up = []
  down : c.down = []
  even : Even Produces c.asked c.answered
  handler : c.handler = .reading ∨ c.handler = .closed

/-- All requests but the last one are answered. -/
def Pending (c : Connection κ α β) (who : κ) (request : α) : Prop :=
  ∃ before, c.asked = before ++ [(who,request)] ∧ Even Produces before c.answered

/-- The last request is answered, as all the others. -/
def Replied (c : Connection κ α β) (who : κ) (request : α) (reply : β) : Prop :=
  ∃ before earlier, c.asked = before ++ [(who,request)] ∧ c.answered = earlier ++ [reply] ∧ Even Produces before earlier ∧
    Produces request reply

/-- The last request is being written, and `rest` is still to come. -/
structure Asking (c : Connection κ α β) (who : κ) (request : α) (rest : List UInt8) : Prop where
  pending : Pending Produces c who request
  down : c.down = []
  written : ∃ sent, requests.Frames limit request (sent ++ rest) ∧ (c.handler = .reading ∧ c.up = sent ∨ c.handler = .closed)

/-- The last request is written, and its reply is not read. -/
inductive Awaiting (c : Connection κ α β) (who : κ) (request : α) : Prop where
  | unread (pending : Pending Produces c who request) (up : requests.Frames limit request c.up) (down : c.down = [])
      (handler : c.handler = .reading)
  | serving (pending : Pending Produces c who request) (up : c.up = []) (down : c.down = [])
      (handler : c.handler = .serving request)
  | answered {reply : β} {rest : List UInt8} (replied : Replied Produces c who request reply) (up : c.up = [])
      (frames : replies.Frames limit reply (c.down ++ rest))
      (handler : c.handler = (if rest = [] then .reading else .writing rest) ∨ c.handler = .closed)
  | lost (pending : Pending Produces c who request) (down : c.down = []) (handler : c.handler = .closed)

variable {requests : Encoding ε α} {replies : Encoding ε β} {limit : Nat} {Produces : α → β → Prop}
  {c c' : Connection κ α β} {who : κ} {request : α} {reply : β} {part rest : List UInt8}

/-! ### What the server does keeps it -/

theorem new_idle : Idle Produces (new : Connection κ α β) := ⟨rfl,rfl,.nil,.inl rfl⟩

theorem Idle.serves (idle : Idle Produces c) (serves : Serves requests replies limit Produces c c') : Idle Produces c' := by
  cases serves with
  | read reading got =>
    rw [idle.up] at got
    simp only [scan] at got
    split at got <;> cases got
  | answer serving => rcases idle.handler with h | h <;> cases h.symm.trans serving
  | write writing => rcases idle.handler with h | h <;> cases h.symm.trans writing
  | close => exact { idle with handler := .inr rfl }

theorem Asking.serves (small : limit < 2^32) (asking : Asking requests limit Produces c who request rest) (more : rest ≠ [])
    (serves : Serves requests replies limit Produces c c') : Asking requests limit Produces c' who request rest := by
  obtain ⟨sent,frames,state⟩ := asking.written
  cases serves with
  | read reading got =>
    rcases state with ⟨_,up⟩ | closed
    · obtain ⟨body,_,fits,whole⟩ := frames
      rw [up] at got
      exact absurd got (scan_part small fits whole.symm more _ _)
    · cases closed.symm.trans reading
  | answer serving => rcases state with ⟨h,_⟩ | h <;> cases h.symm.trans serving
  | write writing => rcases state with ⟨h,_⟩ | h <;> cases h.symm.trans writing
  | close => exact ⟨asking.pending,asking.down,sent,frames,.inr rfl⟩

theorem Awaiting.serves (small : limit < 2^32) (awaiting : Awaiting requests replies limit Produces c who request)
    (serves : Serves requests replies limit Produces c c') : Awaiting requests replies limit Produces c' who request := by
  cases awaiting with
  | unread pending up down handler =>
    cases serves with
    | @read ended _ _ _ reading got decoded =>
      obtain ⟨body,encoded,fits,whole⟩ := up
      have read := scan_frame ended small fits []
      rw [List.append_nil,← whole,got] at read
      obtain ⟨rfl,rfl⟩ := Scan.body.inj read
      obtain rfl := Except.ok.inj (decoded.symm.trans (requests.round_trip _ _ encoded))
      exact .serving pending rfl down rfl
    | answer serving => cases handler.symm.trans serving
    | write writing => cases handler.symm.trans writing
    | close => exact .lost pending down rfl
  | serving pending up down handler =>
    cases serves with
    | read reading => cases handler.symm.trans reading
    | answer serving produces frames =>
      obtain rfl := Handler.serving.inj (handler.symm.trans serving)
      obtain ⟨before,asked,even⟩ := pending
      refine .answered ⟨before,c.answered,asked,rfl,even,produces⟩ up ?_ (.inl (if_neg frames.ne_nil).symm)
      rw [down]
      exact frames
    | write writing => cases handler.symm.trans writing
    | close => exact .lost pending down rfl
  | @answered reply rest replied up frames handler =>
    cases serves with
    | read reading got =>
      rw [up] at got
      simp only [scan] at got
      split at got <;> cases got
    | answer serving =>
      rw [serving] at handler
      split at handler <;> rcases handler with h | h <;> cases h
    | @write part rest' writing =>
      rw [writing] at handler
      split at handler
      · rcases handler with h | h <;> cases h
      · rcases handler with h | h
        · obtain rfl := Handler.writing.inj h
          refine .answered replied up ?_ (.inl rfl)
          rw [List.append_assoc]
          exact frames
        · cases h
    | close => exact .answered replied up frames (.inr rfl)
  | lost pending down handler =>
    cases serves with
    | read reading => cases handler.symm.trans reading
    | answer serving => cases handler.symm.trans serving
    | write writing => cases handler.symm.trans writing
    | close => exact .lost pending down rfl

/-! ### What a client does -/

theorem Idle.ask (idle : Idle Produces c) (frames : requests.Frames limit request rest) (who : κ) :
    Asking requests limit Produces (c.ask who request) who request rest :=
  ⟨⟨c.asked,rfl,idle.even⟩,idle.down,[],frames,idle.handler.imp_left fun reading => ⟨reading,idle.up⟩⟩

theorem Asking.send (asking : Asking requests limit Produces c who request (part ++ rest)) :
    Asking requests limit Produces (c.send part) who request rest := by
  obtain ⟨pending,down,sent,frames,state⟩ := asking
  refine ⟨pending,down,sent ++ part,by rwa [List.append_assoc],state.imp_left fun ⟨reading,up⟩ => ⟨reading,?_⟩⟩
  rw [Connection.send,up]

/-- Once nothing more is to be written, the reply is awaited. -/
theorem Asking.awaiting (asking : Asking requests limit Produces c who request []) :
    Awaiting requests replies limit Produces c who request := by
  obtain ⟨pending,down,sent,frames,⟨reading,up⟩ | closed⟩ := asking
  · rw [List.append_nil] at frames
    exact .unread pending (up ▸ frames) down reading
  · exact .lost pending down closed

/-- The reply that is read is the one to the last request, and nothing is left on the connection. -/
theorem Awaiting.take (small : limit < 2^32) (awaiting : Awaiting requests replies limit Produces c who request)
    {ended : Bool} {body : List UInt8} (got : scan limit ended c.down = .body body rest)
    (decoded : replies.deserialize body = .ok reply) :
    Idle Produces (c.take rest) ∧ Replied Produces (c.take rest) who request reply := by
  have nothing (down : c.down = []) : False := by
    rw [down] at got
    simp only [scan] at got
    split at got <;> cases got
  cases awaiting with
  | unread _ _ down => exact (nothing down).elim
  | serving _ _ down => exact (nothing down).elim
  | lost _ down => exact (nothing down).elim
  | @answered reply' left replied up frames handler =>
    obtain ⟨body',encoded,fits,whole⟩ := frames
    by_cases more : left = []
    swap
    · exact absurd got (scan_part small fits whole.symm more _ _)
    subst more
    rw [List.append_nil] at whole
    have read := scan_frame ended small fits []
    rw [List.append_nil,← whole,got] at read
    obtain ⟨rfl,rfl⟩ := Scan.body.inj read
    obtain rfl := Except.ok.inj (decoded.symm.trans (replies.round_trip _ _ encoded))
    obtain ⟨before,earlier,asked,answered,even,produces⟩ := replied
    refine ⟨⟨up,rfl,?_,handler⟩,before,earlier,asked,answered,even,produces⟩
    simp only [Connection.take,asked,answered]
    exact List.rel_append even (.cons produces .nil)

/-! ### What has happened stays so -/

/-- On this connection the request was asked, and the reply is the one to it. -/
def Recorded (Produces : α → β → Prop) (c : Connection κ α β) (who : κ) (request : α) (reply : β) : Prop :=
  ∃ k : Nat, c.asked[k]? = some (who,request) ∧ c.answered[k]? = some reply ∧ Produces request reply

theorem Replied.recorded (replied : Replied Produces c who request reply) : Recorded Produces c who request reply := by
  obtain ⟨before,earlier,asked,answered,even,produces⟩ := replied
  refine ⟨before.length,?_,?_,produces⟩
  · rw [asked,List.getElem?_concat_length]
  · rw [answered,even.length_eq,List.getElem?_concat_length]

/-- More may have happened on the second connection than on the first. -/
def Grows (c c' : Connection κ α β) : Prop := c.asked <+: c'.asked ∧ c.answered <+: c'.answered

theorem Recorded.grows (recorded : Recorded Produces c who request reply) (grows : Grows c c') :
    Recorded Produces c' who request reply := by
  obtain ⟨k,asked,answered,produces⟩ := recorded
  obtain ⟨⟨more,sameAsked⟩,more',sameAnswered⟩ := grows
  refine ⟨k,?_,?_,produces⟩
  · rw [← sameAsked,List.getElem?_append_left (List.getElem?_eq_some_iff.mp asked).1,asked]
  · rw [← sameAnswered,List.getElem?_append_left (List.getElem?_eq_some_iff.mp answered).1,answered]

theorem Serves.grows (serves : Serves requests replies limit Produces c c') : Grows c c' := by
  cases serves with
  | answer => exact ⟨List.prefix_rfl,List.prefix_append _ _⟩
  | read | write | close => exact ⟨List.prefix_rfl,List.prefix_rfl⟩

end Connection
end Crayon.Exchange
