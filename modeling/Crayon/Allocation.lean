import Crayon.Arena

/-!
What the arena's operations do to its slots. Every operation is a sequence of
moves (`apply_ends`): a slot is cut at the top, taken from a free list or
returned to one, and an entry is filled, committed or read; so an entry that is
there was there before or has just been reserved (`Moves.origin`). The slots in use and
those on the free lists together tile the arena up to its top (`Sound`), as long
as no requested size wraps around when it is rounded up (`Op.Fits`); so raw
accesses stay inside the slot they are meant for, and a committed object keeps
its bytes.
-/
namespace Crayon.ArenaStore
open Arena Command
open Relation (ReflTransGen)

/-! ### Slot sizes -/

theorem slot_for_toNat (size : UInt64) : (slot_for size).toNat = (max size.toNat 1 + 7) / 8 * 8 % 2^64 := by
  have atLeast : (max size 1).toNat = max size.toNat 1 := by
    show (if size ≤ 1 then 1 else size).toNat = _
    by_cases small : size.toNat ≤ 1
    · rw [if_pos (UInt64.le_iff_toNat_le.mpr small),max_eq_right small]
      rfl
    · rw [if_neg (fun le => small (UInt64.le_iff_toNat_le.mp le)),max_eq_left (not_le.mp small).le]
  have bound := size.toNat_lt
  rw [slot_for,div_ceil,UInt64.toNat_mul]
  generalize max size 1 = n at atLeast ⊢
  split
  · rename_i rest
    have rest : 0 < n.toNat % 8 := by simpa [UInt64.lt_iff_toNat_lt] using rest
    rw [UInt64.toNat_add,UInt64.toNat_div]
    show ((n.toNat / 8 + 1) % 2^64) * 8 % 2^64 = _
    omega
  · rename_i rest
    have rest : n.toNat % 8 = 0 := by simpa [UInt64.lt_iff_toNat_lt] using rest
    rw [UInt64.toNat_div]
    show n.toNat / 8 * 8 % 2^64 = _
    omega

/-- A slot holds its object exactly when rounding the size up does not wrap. -/
theorem le_slot_for_iff (size : UInt64) : size.toNat ≤ (slot_for size).toNat ↔ size.toNat ≤ 2^64 - 8 := by
  have bound := size.toNat_lt
  rw [slot_for_toNat]
  omega

theorem slot_for_aligned (size : UInt64) : (slot_for size).toNat % 8 = 0 := by
  rw [slot_for_toNat]
  omega

theorem checked_add_some {a b sum : UInt64} (added : checked_add a b = some sum) :
    sum = a + b ∧ sum.toNat = a.toNat + b.toNat := by
  rw [checked_add] at added
  split at added
  · rename_i below
    obtain rfl := Option.some.inj added
    exact ⟨rfl,by rw [UInt64.toNat_add,Nat.mod_eq_of_lt below]⟩
  · cases added

theorem Buffer.len_toNat (bytes : Buffer) : bytes.len.toNat = bytes.bytes.length := by
  have short := bytes.len_lt
  exact UInt64.toNat_ofNat_of_lt' (by show _ < 2^64; omega)

/-! ### Moves -/

/-- The object that an operation is about. -/
def Op.target : Op → Option ObjectId
  | .reserve id .. | .commit id _ | .rollback id _ | .put id .. | .read id | .write_chunk id .. | .read_chunk id ..
  | .release id => some id
  | .reap _ => none

/-- The size for which an operation may reserve a slot. -/
def Op.size : Op → Option UInt64
  | .reserve _ size .. => some size
  | .put _ bytes .. => some bytes.len
  | _ => none

/-- The reservation that an operation draws. -/
def Op.draws : Op → Option RequestId
  | .reserve _ _ _ _ _ _ _ reservation | .put _ _ _ _ _ _ reservation => some reservation
  | _ => none

/-- The object that an operation may commit. -/
def Op.commits : Op → Option ObjectId
  | .commit id _ | .put id _ _ _ _ _ _ => some id
  | _ => none

/-- The object that an operation may write to or commit. -/
def Op.writes : Op → Option ObjectId
  | .commit id _ | .put id .. | .write_chunk id .. => some id
  | _ => none

theorem Op.target_of_writes {op : Op} {id : ObjectId} (writes : op.writes = some id) : op.target = some id := by
  cases op <;> first | exact writes | cases writes

theorem Op.writes_of_commits {op : Op} {id : ObjectId} (commits : op.commits = some id) : op.writes = some id := by
  cases op <;> first | exact commits | cases commits

/-- The size requested can be rounded up without wrapping around. -/
def Op.Fits (op : Op) : Prop := ∀ size ∈ op.size, size.toNat ≤ 2^64 - 8

instance (op : Op) : Decidable op.Fits :=
  decidable_of_iff ((op.size.all fun size => decide (size.toNat ≤ 2^64 - 8)) = true) <| by
    simp [Op.Fits,Option.all_eq_true]

/-- An entry that an operation has just reserved. -/
structure Reserved (op : Op) (id : ObjectId) (e : Entry) : Prop where
  target : op.target = some id
  size : op.size = some e.size
  drawn : op.draws = some e.reservation
  slot : e.slot = slot_for e.size
  committed : e.committed = false
  written : e.written_until = 0
  stamped : e.reserved_at.isSome = true

/-- Why the slot of an entry goes back to its free list. -/
inductive Recycled (op : Op) (id : ObjectId) (e : Entry) : Prop where
  | expired (stamped : e.reserved_at.isSome = true)
  | released (asked : op = .release id)
  | rolled_back (asked : op = .rollback id e.reservation) (committed : e.committed = true)

/-- What an operation may do, one change at a time. -/
inductive Move (op : Op) : ArenaStore → ArenaStore → Prop where
  | cut {s : ArenaStore} {id : ObjectId} {e : Entry} (absent : s.alloc.live.get id = none) (reserved : Reserved op id e)
      (start : e.offset = s.alloc.top) (room : s.alloc.top.toNat + e.slot.toNat ≤ ARENA_BYTES.toNat) :
      Move op s { s with alloc := { s.alloc with top := s.alloc.top + e.slot, live := s.alloc.live.insert id e } }
  | reuse {s : ArenaStore} {id : ObjectId} {e : Entry} {rest : List UInt64} (absent : s.alloc.live.get id = none)
      (reserved : Reserved op id e) (spare : s.alloc.free.get e.slot = some (rest ++ [e.offset])) :
      Move op s { s with alloc := { s.alloc with free := s.alloc.free.modify e.slot List.dropLast
                                                 live := s.alloc.live.insert id e } }
  | recycle {s : ArenaStore} {id : ObjectId} {e : Entry} (found : s.alloc.live.get id = some e)
      (why : Recycled op id e) : Move op s { s with alloc := s.alloc.recycle id e }
  | commit {s : ArenaStore} {id : ObjectId} {e : Entry} (found : s.alloc.live.get id = some e)
      (complete : e.mode = .Streamed → e.written_until = e.size) (asked : op.commits = some id) :
      Move op s { s with alloc := { s.alloc with live := s.alloc.live.modify id fun e =>
        { e with committed := true, reserved_at := none } } }
  | progress {s : ArenaStore} {id : ObjectId} {e : Entry} {stop : UInt64} {now : Instant}
      (found : s.alloc.live.get id = some e) (uncommitted : e.committed = false) (inside : stop ≤ e.size)
      (further : e.written_until ≤ stop) (asked : op.writes = some id) :
      Move op s { s with alloc := { s.alloc with live := s.alloc.live.modify id fun e =>
        { e with written_until := stop, reserved_at := some now } } }
  | write {s : ArenaStore} {id : ObjectId} {e : Entry} {rel : UInt64} {bytes : List UInt8}
      (found : s.alloc.live.get id = some e) (uncommitted : e.committed = false)
      (inside : rel.toNat + bytes.length ≤ e.size.toNat) (asked : op.writes = some id) :
      Move op s { s with map := s.map.write (e.offset + rel).toNat bytes }
  | read {s : ArenaStore} {id : ObjectId} {e : Entry} {rel : UInt64} {len : Nat}
      (found : s.alloc.live.get id = some e) (inside : rel.toNat + len ≤ e.size.toNat) :
      Move op s { s with map := s.map.touch ⟨(e.offset + rel).toNat,len⟩ }

/-- Any number of moves of one operation. -/
abbrev Moves (op : Op) : ArenaStore → ArenaStore → Prop := ReflTransGen (Move op)

/-- What every move keeps, all moves keep. -/
theorem Moves.keeps {op : Op} {s s' : ArenaStore} (moves : Moves op s s') {P : ArenaStore → Prop}
    (step : ∀ {s s'}, Move op s s' → P s → P s') (start : P s) : P s' := by
  induction moves with
  | refl => exact start
  | tail _ move ih => exact step move ih

/-! ### Operations as moves -/

section
variable {op : Op} (order : Traversal ObjectId) {id : ObjectId}

theorem reap_moves (now : Instant) (s : ArenaStore) : Moves op s { s with alloc := s.alloc.reap order now } := by
  have due : ∀ id ∈ (order.list s.alloc.live.keys).filter fun id => (s.alloc.live.get id).any (Alloc.expired now),
      ∀ e, s.alloc.live.get id = some e → e.reserved_at.isSome = true := by
    intro id member e found
    have expired : (s.alloc.live.get id).any (Alloc.expired now) = true := (List.mem_filter.mp member).2
    rw [found] at expired
    cases stamp : e.reserved_at with
    | some _ => rfl
    | none => simp [Alloc.expired,stamp] at expired
  unfold Alloc.reap
  revert due
  generalize (order.list s.alloc.live.keys).filter _ = ids
  -- the loop only removes entries, so the rest stay due
  induction ids generalizing s with
  | nil => exact fun _ => .refl
  | cons id rest ih =>
    intro due
    obtain ⟨dueNow,dueLater⟩ := List.forall_mem_cons.mp due
    rw [List.foldl_cons]
    cases found : s.alloc.live.get id with
    | none => exact ih s dueLater
    | some e =>
      refine .head (.recycle found (.expired (dueNow e found))) (ih { s with alloc := s.alloc.recycle id e } ?_)
      intro id' member e' found'
      rw [Alloc.recycle,Table.get_remove] at found'
      split at found'
      · cases found'
      · exact dueLater id' member e' found'

theorem allocate_ok {a a' : Alloc} {slot off : UInt64} (done : a.allocate slot = .ok (off,a')) :
    (∃ rest, a.free.get slot = some (rest ++ [off]) ∧ a' = { a with free := a.free.modify slot List.dropLast }) ∨
      (off = a.top ∧ a.top.toNat + slot.toNat ≤ ARENA_BYTES.toNat ∧ a' = { a with top := a.top + slot }) := by
  rw [Alloc.allocate] at done
  split at done
  · rename_i last
    obtain ⟨offs,found,last⟩ := Option.bind_eq_some_iff.mp last
    obtain ⟨rest,rfl⟩ := List.getLast?_eq_some_iff.mp last
    cases done
    exact .inl ⟨rest,found,rfl⟩
  · split at done
    · cases done
    · rename_i next added
      obtain ⟨rfl,exact⟩ := checked_add_some added
      split at done
      · cases done
      · rename_i room
        cases done
        refine .inr ⟨rfl,?_,rfl⟩
        rw [← exact]
        exact UInt64.le_iff_toNat_le.mp (UInt64.not_lt.mp room)

/-- How a reservation ends: with the entry of the object as it was or as it is
    reserved now, or with an error. -/
theorem reserve_ends (size : UInt64) (codec : Codec) (checksum : Checksum) (mode : ArenaWriteMode) (now later : Instant)
    (fresh : RequestId) (target : op.target = some id) (sized : op.size = some size) (drawn : op.draws = some fresh)
    (s : ArenaStore) :
    ∃ s', Moves op s s' ∧ s'.map = s.map ∧
      ((∃ e, reserve order id size codec checksum mode now later fresh s =
            .ok ⟨e.offset,e.reservation,e.committed⟩ s' ∧ s'.alloc.live.get id = some e ∧
            e.size = size ∧ e.codec = codec ∧ e.checksum = checksum ∧ e.mode = mode) ∨
        ∃ error, reserve order id size codec checksum mode now later fresh s = .error (.Err error) s') := by
  have reaped : Moves op s { s with alloc := s.alloc.reap order now } := reap_moves order now s
  simp only [reserve,bind_apply,modify_apply,get_apply]
  generalize s.alloc.reap order now = a at reaped ⊢
  cases found : a.live.get id with
  | some e =>
    refine ⟨_,reaped,rfl,?_⟩
    by_cases same : e.size = size ∧ e.codec = codec ∧ e.checksum = checksum ∧ e.mode = mode
    · refine .inl ⟨e,?_,found,same⟩
      simp only [ensure_of same,bind_apply,pure_apply]
    · refine .inr ⟨.ObjectConflict id,?_⟩
      simp only [ensure_not same,bind_apply,err_apply]
  | none =>
    cases taken : a.allocate (slot_for size) with
    | error error =>
      refine ⟨_,reaped,rfl,.inr ⟨error,?_⟩⟩
      simp only [lift_error,bind_apply,err_apply]
    | ok pair =>
      obtain ⟨offset,a'⟩ := pair
      simp only [lift_ok,bind_apply,pure_apply,modify_apply]
      let e : Entry := ⟨offset,size,slot_for size,codec,checksum,fresh,mode,0,false,some later⟩
      have reserved : Reserved op id e := ⟨target,sized,drawn,rfl,rfl,rfl,rfl⟩
      refine ⟨{ s with alloc := { a' with live := a'.live.insert id e } },?_,rfl,.inl ⟨e,rfl,?_,rfl,rfl,rfl,rfl⟩⟩
      · obtain ⟨rest,spare,rfl⟩ | ⟨rfl,room,rfl⟩ := allocate_ok taken
        · exact reaped.tail (.reuse (e := e) found reserved spare)
        · exact reaped.tail (.cut (e := e) found reserved rfl room)
      · rw [Table.get_insert,if_pos rfl]

theorem commit_ends (id : ObjectId) (reservation : RequestId) (s : ArenaStore) :
    (∃ e s', commit id reservation s = .ok e.toMeta s' ∧ s.alloc.live.get id = some e ∧ e.reservation = reservation ∧
        (e.mode = .Streamed → e.written_until = e.size) ∧
        s' = { s with alloc := { s.alloc with live := s.alloc.live.modify id fun e =>
          { e with committed := true, reserved_at := none } } }) ∨
      ∃ error, commit id reservation s = .error (.Err error) s := by
  cases found : s.alloc.live.get id with
  | none => exact .inr ⟨.ObjectNotFound id,by simp only [commit,bind_apply,get_apply,found,ok_or_none,err_apply]⟩
  | some e =>
    by_cases mine : e.reservation = reservation
    swap
    · exact .inr ⟨.StaleFence,by simp only [commit,bind_apply,get_apply,found,ok_or_some,pure_apply,ensure_not mine,
        err_apply]⟩
    by_cases complete : ¬ (e.mode = .Streamed ∧ e.written_until ≠ e.size)
    swap
    · exact .inr ⟨.Protocol "arena object incomplete",by simp only [commit,bind_apply,get_apply,found,ok_or_some,
        pure_apply,ensure_of mine,ensure_not complete,err_apply]⟩
    refine .inl ⟨e,_,?_,rfl,mine,fun streamed => ?_,rfl⟩
    · simp only [commit,bind_apply,get_apply,found,ok_or_some,pure_apply,ensure_of mine,ensure_of complete,entry_mut,
        modify_apply]
    · by_contra partly
      exact complete ⟨streamed,partly⟩

theorem rollback_ends (id : ObjectId) (reservation : RequestId) (s : ArenaStore) :
    (∃ e, rollback id reservation s = .ok ⟨⟩ { s with alloc := s.alloc.recycle id e } ∧
        s.alloc.live.get id = some e ∧ e.reservation = reservation ∧ e.committed = true) ∨
      ∃ error, rollback id reservation s = .error (.Err error) s := by
  cases found : s.alloc.live.get id with
  | none => exact .inr ⟨.ObjectNotFound id,by simp only [rollback,bind_apply,get_apply,found,ok_or_none,err_apply]⟩
  | some e =>
    by_cases mine : e.reservation = reservation ∧ e.committed = true
    · refine .inl ⟨e,?_,rfl,mine⟩
      simp only [rollback,bind_apply,get_apply,found,ok_or_some,pure_apply,ensure_of mine,modify_apply]
    · exact .inr ⟨.StaleFence,by simp only [rollback,bind_apply,get_apply,found,ok_or_some,pure_apply,ensure_not mine,
        err_apply]⟩

/-- A range that belongs to the object of an operation: it starts at some byte of
    the object and is no longer than what follows. -/
def Own (op : Op) (s : ArenaStore) (span : Span) : Prop :=
  ∃ id e rel, op.target = some id ∧ s.alloc.live.get id = some e ∧ span.offset = (e.offset + rel).toNat ∧
    rel.toNat + span.len ≤ e.size.toNat

/-- How every operation ends: after moves of its own, and having accessed only
    bytes of its own object, which is then still there. -/
structure Ends (op : Op) (s s' : ArenaStore) : Prop where
  moves : Moves op s s'
  touched : ∃ spans, s'.map.touched = s.map.touched ++ spans ∧ ∀ span ∈ spans, Own op s' span

theorem Ends.quiet {s s' : ArenaStore} (moves : Moves op s s') (same : s'.map = s.map) : Ends op s s' :=
  ⟨moves,[],by rw [same,List.append_nil],by simp⟩

theorem Ends.one {s s' : ArenaStore} {span : Span} (moves : Moves op s s')
    (logged : s'.map.touched = s.map.touched ++ [span]) (own : Own op s' span) : Ends op s s' :=
  ⟨moves,[span],logged,by simpa using own⟩

/-- Bytes are put where a place is reserved for them, unless they are there already. -/
theorem put_cases (id : ObjectId) (bytes : Buffer) (codec : Codec) (checksum : Checksum) (now later : Instant)
    (fresh : RequestId) (s : ArenaStore) :
    ∃ s₁, Outcome.state (reserve order id bytes.len codec checksum .Direct now later fresh s) = s₁ ∧
      Moves (.put id bytes codec checksum now later fresh) s s₁ ∧ s₁.map = s.map ∧
      (put order id bytes codec checksum now later fresh s = .ok none s₁ ∧
          (∃ error, reserve order id bytes.len codec checksum .Direct now later fresh s = .error (.Err error) s₁) ∨
        ∃ e, s₁.alloc.live.get id = some e ∧ e.size = bytes.len ∧ e.mode = .Direct ∧
          (e.committed = true ∧ put order id bytes codec checksum now later fresh s = .ok (some e.offset) s₁ ∨
            e.committed = false ∧ put order id bytes codec checksum now later fresh s = .ok (some e.offset) { s₁ with
              map := s₁.map.write e.offset.toNat bytes.bytes
              alloc := { s₁.alloc with live := s₁.alloc.live.modify id fun e =>
                { e with committed := true, reserved_at := none } } })) := by
  obtain ⟨s₁,moves,sameMap,⟨e,reserved,found,size,-,-,mode⟩ | ⟨error,failed⟩⟩ := reserve_ends order
    bytes.len codec checksum .Direct now later fresh
    (show Op.target (.put id bytes codec checksum now later fresh) = some id from rfl) rfl rfl s
  swap
  · refine ⟨s₁,by rw [failed]; rfl,moves,sameMap,.inl ⟨?_,error,failed⟩⟩
    simp only [put,bind_apply,ok,failed,pure_apply]
  refine ⟨s₁,by rw [reserved]; rfl,moves,sameMap,.inr ⟨e,found,size,mode,?_⟩⟩
  cases committed : e.committed with
  | true =>
    refine .inl ⟨rfl,?_⟩
    simp only [put,bind_apply,ok,reserved,committed,if_true,pure_apply]
  | false =>
    refine .inr ⟨rfl,?_⟩
    have direct : ¬ (e.mode = .Streamed ∧ e.written_until ≠ e.size) := by
      rw [mode]
      rintro ⟨⟨⟩,_⟩
    simp only [put,bind_apply,ok,reserved,committed,Bool.false_eq_true,if_false,write_at,modify_apply,commit,get_apply,found,
      ok_or_some,pure_apply,ensure_of (rfl : e.reservation = e.reservation),ensure_of direct,entry_mut]

theorem put_ends (id : ObjectId) (bytes : Buffer) (codec : Codec) (checksum : Checksum) (now later : Instant)
    (fresh : RequestId) (s : ArenaStore) :
    Ends (.put id bytes codec checksum now later fresh) s
      (Outcome.state (put order id bytes codec checksum now later fresh s)) := by
  obtain ⟨s₁,_,moves,sameMap,⟨ran,_⟩ | ⟨e,found,size,mode,⟨_,ran⟩ | ⟨uncommitted,ran⟩⟩⟩ :=
    put_cases order id bytes codec checksum now later fresh s
  · rw [ran]
    exact .quiet moves sameMap
  · rw [ran]
    exact .quiet moves sameMap
  · have length : (0 : UInt64).toNat + bytes.bytes.length ≤ e.size.toNat := by
      rw [size,Buffer.len_toNat,UInt64.toNat_zero,Nat.zero_add]
    have wrote : Moves (.put id bytes codec checksum now later fresh) s
        { s₁ with map := s₁.map.write (e.offset + 0).toNat bytes.bytes } := moves.tail (.write found uncommitted length rfl)
    rw [UInt64.add_zero] at wrote
    have direct : e.mode = .Streamed → e.written_until = e.size := by
      rw [mode]
      nofun
    rw [ran]
    refine .one (wrote.tail (.commit found direct rfl)) (by rw [← sameMap]; rfl)
      ⟨id,{ e with committed := true, reserved_at := none },0,rfl,?_,?_,length⟩
    · simp only [Outcome.state_ok]
      rw [Table.get_modify_of found,if_pos rfl]
    · rw [UInt64.add_zero]

theorem read_committed {s : ArenaStore} {e : Entry} (found : s.alloc.live.get id = some e) (committed : e.committed = true) :
    read id s = .ok (some (s.map.slice e.content)) { s with map := s.map.touch e.content } := by
  simp only [read,slice,bind_apply,get_apply,found,committed,if_true,modify_apply,pure_apply]

theorem read_ends (id : ObjectId) (s : ArenaStore) : Ends (.read id) s (Outcome.state (read id s)) := by
  cases found : s.alloc.live.get id with
  | none =>
    simp only [read,bind_apply,get_apply,found,pure_apply,Outcome.state_ok]
    exact .quiet .refl rfl
  | some e =>
    by_cases committed : e.committed = true
    swap
    · simp only [read,bind_apply,get_apply,found,committed,Bool.false_eq_true,if_false,pure_apply,Outcome.state_ok]
      exact .quiet .refl rfl
    rw [read_committed found committed]
    have length : (0 : UInt64).toNat + e.size.toNat ≤ e.size.toNat := by rw [UInt64.toNat_zero,Nat.zero_add]
    have looked : Move (.read id) s { s with map := s.map.touch ⟨(e.offset + 0).toNat,e.size.toNat⟩ } :=
      .read found length
    rw [UInt64.add_zero] at looked
    exact .one (.single looked) rfl ⟨id,e,0,rfl,found,by rw [UInt64.add_zero]; rfl,length⟩

/-- A checked end lies in the object. -/
theorem within_size {rel len size stop : UInt64} (checked : (checked_add rel len).filter (· ≤ size) = some stop) :
    stop.toNat = rel.toNat + len.toNat ∧ stop ≤ size := by
  obtain ⟨added,inside⟩ := Option.filter_eq_some_iff.mp checked
  exact ⟨(checked_add_some added).2,by simpa using inside⟩

/-- A chunk is read if it lies in a committed object. -/
theorem read_chunk_cases (id : ObjectId) (rel_offset len : UInt64) (s : ArenaStore) :
    read_chunk id rel_offset len s = .ok none s ∨
      ∃ e, s.alloc.live.get id = some e ∧ e.committed = true ∧ rel_offset.toNat + len.toNat ≤ e.size.toNat ∧
        read_chunk id rel_offset len s = .ok (some (s.map.slice ⟨(e.offset + rel_offset).toNat,len.toNat⟩))
          { s with map := s.map.touch ⟨(e.offset + rel_offset).toNat,len.toNat⟩ } := by
  cases found : s.alloc.live.get id with
  | none => exact .inl (by simp only [read_chunk,bind_apply,get_apply,found,pure_apply])
  | some e =>
    by_cases committed : e.committed = true
    swap
    · exact .inl (by simp only [read_chunk,bind_apply,get_apply,found,committed,Bool.false_eq_true,if_false,pure_apply])
    cases checked : (checked_add rel_offset len).filter (· ≤ e.size) with
    | none =>
      exact .inl (by simp only [read_chunk,bind_apply,get_apply,found,committed,if_true,checked,pure_apply])
    | some stop =>
      obtain ⟨exact,below⟩ := within_size checked
      have length : rel_offset.toNat + len.toNat ≤ e.size.toNat := exact ▸ UInt64.le_iff_toNat_le.mp below
      refine .inr ⟨e,rfl,committed,length,?_⟩
      simp only [read_chunk,slice,bind_apply,get_apply,found,committed,if_true,checked,modify_apply,pure_apply]

theorem read_chunk_ends (id : ObjectId) (rel_offset len : UInt64) (s : ArenaStore) :
    Ends (.read_chunk id rel_offset len) s (Outcome.state (read_chunk id rel_offset len s)) := by
  rcases read_chunk_cases id rel_offset len s with nothing | ⟨e,found,_,length,read⟩
  · rw [nothing]
    exact .quiet .refl rfl
  · rw [read]
    exact .one (.single (.read found length)) rfl ⟨id,e,rel_offset,rfl,found,rfl,length⟩

/-- A chunk that follows what was written is written, one that was written before is compared, and any other is
    refused. -/
theorem write_chunk_cases (id : ObjectId) (reservation : RequestId) (rel_offset : UInt64) (bytes : Buffer) (now : Instant)
    (s : ArenaStore) :
    (∃ e stop, s.alloc.live.get id = some e ∧ e.reservation = reservation ∧ e.committed = false ∧ e.mode = .Streamed ∧
        stop.toNat = rel_offset.toNat + bytes.bytes.length ∧ stop ≤ e.size ∧
        (rel_offset = e.written_until ∧ write_chunk id reservation rel_offset bytes now s = .ok () { s with
            map := s.map.write (e.offset + rel_offset).toNat bytes.bytes
            alloc := { s.alloc with live := s.alloc.live.modify id fun e =>
              { e with written_until := stop, reserved_at := some now } } } ∨
          stop ≤ e.written_until ∧ s.map.slice ⟨(e.offset + rel_offset).toNat,bytes.bytes.length⟩ = bytes.bytes ∧
            write_chunk id reservation rel_offset bytes now s =
              .ok () { s with map := s.map.touch ⟨(e.offset + rel_offset).toNat,bytes.bytes.length⟩ })) ∨
      (∃ error, write_chunk id reservation rel_offset bytes now s = .error (.Err error) s) ∨
      ∃ e, s.alloc.live.get id = some e ∧ rel_offset.toNat + bytes.bytes.length ≤ e.size.toNat ∧
        write_chunk id reservation rel_offset bytes now s = .error (.Err (.ObjectConflict id))
          { s with map := s.map.touch ⟨(e.offset + rel_offset).toNat,bytes.bytes.length⟩ } := by
  cases found : s.alloc.live.get id with
  | none =>
    refine .inr (.inl ⟨.ObjectNotFound id,?_⟩)
    simp only [write_chunk,bind_apply,get_apply,found,ok_or_none,err_apply]
  | some e =>
    by_cases mine : e.reservation = reservation ∧ e.committed = false
    swap
    · refine .inr (.inl ⟨.StaleFence,?_⟩)
      simp only [write_chunk,bind_apply,get_apply,found,ok_or_some,pure_apply,ensure_not mine,err_apply]
    by_cases streamed : e.mode = .Streamed
    swap
    · refine .inr (.inl ⟨.Protocol "arena reservation is not streamed",?_⟩)
      simp only [write_chunk,bind_apply,get_apply,found,ok_or_some,pure_apply,ensure_of mine,ensure_not streamed,err_apply]
    cases checked : (checked_add rel_offset bytes.len).filter (· ≤ e.size) with
    | none =>
      refine .inr (.inl ⟨.Protocol "put chunk out of bounds",?_⟩)
      simp only [write_chunk,bind_apply,get_apply,found,ok_or_some,pure_apply,ensure_of mine,ensure_of streamed,checked,
        ok_or_none,err_apply]
    | some stop =>
      obtain ⟨exact,below⟩ := within_size checked
      rw [Buffer.len_toNat] at exact
      simp only [write_chunk,bind_apply,get_apply,found,ok_or_some,pure_apply,ensure_of mine,ensure_of streamed,checked]
      by_cases next : rel_offset = e.written_until
      · refine .inl ⟨e,stop,rfl,mine.1,mine.2,streamed,exact,below,.inl ⟨next,?_⟩⟩
        rw [if_pos next]
        simp only [bind_apply,write_at,entry_mut,modify_apply]
      rw [if_neg next]
      by_cases behind : stop ≤ e.written_until
      swap
      · refine .inr (.inl ⟨.Protocol "put chunk must be contiguous",?_⟩)
        rw [if_neg behind]
        rfl
      rw [if_pos behind]
      simp only [bind_apply,slice,get_apply,modify_apply,pure_apply]
      by_cases same : s.map.slice ⟨(e.offset + rel_offset).toNat,bytes.bytes.length⟩ = bytes.bytes
      · refine .inl ⟨e,stop,rfl,mine.1,mine.2,streamed,exact,below,.inr ⟨behind,same,?_⟩⟩
        rw [ensure_of same]
        rfl
      · refine .inr (.inr ⟨e,rfl,exact ▸ UInt64.le_iff_toNat_le.mp below,?_⟩)
        rw [ensure_not same]
        rfl

theorem write_chunk_ends (id : ObjectId) (reservation : RequestId) (rel_offset : UInt64) (bytes : Buffer) (now : Instant)
    (s : ArenaStore) :
    Ends (.write_chunk id reservation rel_offset bytes now) s
      (Outcome.state (write_chunk id reservation rel_offset bytes now s)) := by
  have looked : ∀ {e}, s.alloc.live.get id = some e → rel_offset.toNat + bytes.bytes.length ≤ e.size.toNat →
      Ends (.write_chunk id reservation rel_offset bytes now) s
        { s with map := s.map.touch ⟨(e.offset + rel_offset).toNat,bytes.bytes.length⟩ } :=
    fun found length => .one (.single (.read found length)) rfl ⟨id,_,rel_offset,rfl,found,rfl,length⟩
  rcases write_chunk_cases id reservation rel_offset bytes now s with
    ⟨e,stop,found,_,uncommitted,_,exact,below,⟨next,ran⟩ | ⟨_,_,ran⟩⟩ | ⟨error,ran⟩ | ⟨e,found,length,ran⟩
  · have length : rel_offset.toNat + bytes.bytes.length ≤ e.size.toNat := exact ▸ UInt64.le_iff_toNat_le.mp below
    rw [ran]
    have wrote : Move (.write_chunk id reservation rel_offset bytes now) s
        { s with map := s.map.write (e.offset + rel_offset).toNat bytes.bytes } := .write found uncommitted length rfl
    have further : e.written_until ≤ stop := by
      rw [← next,UInt64.le_iff_toNat_le,exact]
      exact Nat.le_add_right _ _
    refine .one (.tail (.single wrote) (.progress (e := e) found uncommitted below further rfl)) rfl
      ⟨id,{ e with written_until := stop, reserved_at := some now },rel_offset,rfl,?_,rfl,length⟩
    simp only [Outcome.state_ok]
    rw [Table.get_modify_of found,if_pos rfl]
  · rw [ran]
    exact looked found (exact ▸ UInt64.le_iff_toNat_le.mp below)
  · rw [ran]
    exact .quiet .refl rfl
  · rw [ran]
    exact looked found length

theorem apply_ends (op : Op) (s : ArenaStore) : Ends op s (Outcome.state (apply order op s)) := by
  cases op with
  | reserve id size codec checksum mode now later reservation =>
    obtain ⟨s',moves,sameMap,⟨e,done,-⟩ | ⟨error,failed⟩⟩ := reserve_ends order
      size codec checksum mode now later reservation
      (show Op.target (.reserve id size codec checksum mode now later reservation) = some id from rfl) rfl rfl s
    · simp only [apply,map_apply,done,Outcome.state_ok]
      exact .quiet moves sameMap
    · simp only [apply,map_apply,failed,Outcome.state_error]
      exact .quiet moves sameMap
  | commit id reservation =>
    obtain ⟨e,s',done,found,mine,complete,rfl⟩ | ⟨error,failed⟩ := commit_ends id reservation s
    · simp only [apply,map_apply,done,Outcome.state_ok]
      exact .quiet (.single (.commit found complete rfl)) rfl
    · simp only [apply,map_apply,failed,Outcome.state_error]
      exact .quiet .refl rfl
  | rollback id reservation =>
    obtain ⟨e,done,found,rfl,committed⟩ | ⟨error,failed⟩ := rollback_ends id reservation s
    · simp only [apply,bind_apply,done,pure_apply,Outcome.state_ok]
      exact .quiet (.single (.recycle found (.rolled_back rfl committed))) rfl
    · simp only [apply,bind_apply,failed,Outcome.state_error]
      exact .quiet .refl rfl
  | put id bytes codec checksum now later reservation =>
    rw [apply,state_map]
    exact put_ends order id bytes codec checksum now later reservation s
  | read id =>
    rw [apply,state_map]
    exact read_ends id s
  | write_chunk id reservation rel_offset bytes now =>
    rw [apply,state_bind fun _ _ => rfl]
    exact write_chunk_ends id reservation rel_offset bytes now s
  | read_chunk id rel_offset len =>
    rw [apply,state_map]
    exact read_chunk_ends id rel_offset len s
  | release id =>
    cases found : s.alloc.live.get id with
    | none =>
      simp only [apply,release,bind_apply,get_apply,found,pure_apply,Outcome.state_ok]
      exact .quiet .refl rfl
    | some e =>
      simp only [apply,release,bind_apply,get_apply,found,modify_apply,pure_apply,Outcome.state_ok]
      exact .quiet (.single (.recycle found (.released rfl))) rfl
  | reap now => exact .quiet (reap_moves order now s) rfl

end

end Crayon.ArenaStore

/-! ### The slots of an allocator -/

namespace Crayon.Arena.Alloc

/-- The slots of the live entries. -/
def held (a : Alloc) : Multiset Span := a.live.sum fun e => {e.span}

/-- The slots on the free list of one size. -/
def spans (slot : UInt64) (offs : List UInt64) : Multiset Span :=
  Multiset.ofList (offs.map fun off => ⟨off.toNat,slot.toNat⟩)

/-- The slots on all free lists. -/
def listed (free : Table UInt64 (List UInt64)) : Multiset Span := (free.keyed spans).sum fun slots => slots

/-- All slots, each as often as it is in use or on a free list. -/
def regions (a : Alloc) : Multiset Span := a.held + listed a.free

theorem spans_push (slot off : UInt64) (offs : List UInt64) :
    spans slot (offs ++ [off]) = spans slot offs + {⟨off.toNat,slot.toNat⟩} := by
  rw [spans,List.map_append,← Multiset.coe_add]
  rfl

/-- Putting a list in the place of another moves the slots by what the lists have. -/
theorem listed_insert (free : Table UInt64 (List UInt64)) (slot : UInt64) (offs : List UInt64) :
    listed (free.insert slot offs) + spans slot ((free.get slot).getD []) = listed free + spans slot offs := by
  have moved := Table.sum_insert (free.keyed spans) slot (spans slot offs) fun slots => slots
  rw [← Table.keyed_insert,Table.get_keyed] at moved
  rw [listed,listed,← moved]
  cases free.get slot <;> rfl

theorem listed_push (free : Table UInt64 (List UInt64)) (slot off : UInt64) :
    listed (free.insert slot ((free.get slot).getD [] ++ [off])) = ⟨off.toNat,slot.toNat⟩ ::ₘ listed free := by
  have moved := listed_insert free slot ((free.get slot).getD [] ++ [off])
  rw [spans_push,← Multiset.add_assoc,Multiset.add_comm _ {_},← Multiset.add_assoc,Multiset.singleton_add] at moved
  exact add_right_cancel moved

theorem listed_pop {free : Table UInt64 (List UInt64)} {slot off : UInt64} {rest : List UInt64}
    (found : free.get slot = some (rest ++ [off])) :
    listed free = ⟨off.toNat,slot.toNat⟩ ::ₘ listed (free.modify slot List.dropLast) := by
  have moved := listed_insert free slot rest
  rw [found,Option.getD_some,spans_push,← Multiset.add_assoc,Multiset.add_comm _ {_},← Multiset.add_assoc,
    Multiset.singleton_add] at moved
  rw [Table.modify_eq_insert found,List.dropLast_concat]
  exact (add_right_cancel moved).symm

variable {id : ObjectId} {a : Alloc} {e : Entry}

theorem held_insert (absent : a.live.get id = none) (e : Entry) :
    (a.live.insert id e).sum (fun e => ({e.span} : Multiset Span)) = e.span ::ₘ a.held := by
  rw [Table.sum_insert_new absent,Multiset.singleton_add]
  rfl

theorem held_remove (found : a.live.get id = some e) :
    a.held = e.span ::ₘ (a.live.remove id).sum fun e => {e.span} := by
  rw [held,Table.sum_eq_add_remove found,Multiset.singleton_add]

theorem span_mem (found : a.live.get id = some e) : e.span ∈ a.regions := by
  rw [regions,held_remove found]
  simp

/-- Recycling loses no slot and makes none. -/
theorem regions_recycle (found : a.live.get id = some e) : (a.recycle id e).regions = a.regions := by
  show (a.live.remove id).sum _ + listed (a.free.insert e.slot _) = _
  rw [listed_push,regions,held_remove found,Multiset.cons_add,Multiset.add_cons]
  rfl

/-- Neither does taking a slot from its free list. -/
theorem regions_reuse {rest : List UInt64} (absent : a.live.get id = none)
    (found : a.free.get e.slot = some (rest ++ [e.offset])) :
    Alloc.regions { a with free := a.free.modify e.slot List.dropLast, live := a.live.insert id e } = a.regions := by
  rw [regions,held,held_insert absent,regions,listed_pop found,Multiset.add_cons,Multiset.cons_add]
  rfl

theorem regions_cut (absent : a.live.get id = none) (top : UInt64) :
    Alloc.regions { a with top := top, live := a.live.insert id e } = e.span ::ₘ a.regions := by
  rw [regions,held,held_insert absent,Multiset.cons_add]
  rfl

/-- What changes in an entry beside its slot does not matter here. -/
theorem regions_modify {f : Entry → Entry} (same : ∀ e, (f e).span = e.span) :
    Alloc.regions { a with live := a.live.modify id f } = a.regions := by
  refine congrArg (· + listed a.free) (Table.sum_eq_of_contributions fun id' => ?_)
  rw [Table.get_modify]
  split
  · cases a.live.get id' with
    | none => rfl
    | some e => simp [same]
  · rfl

/-- The slots tile the arena up to its top, and every object has room in its slot. -/
structure Sound (a : Alloc) : Prop where
  tiles : Tiles a.regions a.top.toNat
  room : a.top.toNat ≤ ARENA_BYTES.toNat
  aligned : ∀ span ∈ a.regions, span.offset % 8 = 0 ∧ span.len % 8 = 0 ∧ 0 < span.len
  fits : ∀ id e, a.live.get id = some e → e.size.toNat ≤ e.slot.toNat

/-- What is committed no longer waits for a commit. -/
def Settled (a : Alloc) : Prop := ∀ id e, a.live.get id = some e → e.committed = true → e.reserved_at = none

namespace Sound
variable {a : Alloc} (sound : Sound a) {id : ObjectId} {e : Entry}
include sound

theorem span_stop (found : a.live.get id = some e) : e.offset.toNat + e.slot.toNat ≤ ARENA_BYTES.toNat :=
  (sound.tiles.inside e.span (span_mem found)).trans sound.room

/-- Two objects have slots apart from each other. -/
theorem apart {id' : ObjectId} {e' : Entry} (found : a.live.get id = some e) (found' : a.live.get id' = some e')
    (different : id' ≠ id) : e.span.Apart e'.span := by
  have others : (a.live.remove id).get id' = some e' := by rw [Table.get_remove,if_neg different,found']
  have tiles := sound.tiles
  rw [regions,held_remove found,Table.sum_eq_add_remove others,Multiset.singleton_add,Multiset.cons_add,
    Multiset.cons_add] at tiles
  exact tiles.apart

/-- The top is aligned, since all slots below it are. -/
theorem top_aligned : a.top.toNat % 8 = 0 := by
  rw [← sound.tiles.sum_len]
  refine Nat.mod_eq_zero_of_dvd (Multiset.dvd_sum fun len member => ?_)
  obtain ⟨span,inside,rfl⟩ := Multiset.mem_map.mp member
  exact Nat.dvd_of_mod_eq_zero (sound.aligned span inside).2.1

end Sound
end Crayon.Arena.Alloc

/-! ### Runs -/

namespace Crayon.ArenaStore
open Arena

variable {op : Op} {e : Entry} {id : ObjectId} {s s' : ArenaStore}

theorem Reserved.roomy (reserved : Reserved op id e) (fits : op.Fits) : e.size.toNat ≤ e.slot.toNat := by
  rw [reserved.slot,le_slot_for_iff]
  exact fits e.size reserved.size

theorem Reserved.slot_aligned (reserved : Reserved op id e) (fits : op.Fits) :
    e.slot.toNat % 8 = 0 ∧ 0 < e.slot.toNat := by
  have small := fits e.size reserved.size
  rw [reserved.slot]
  refine ⟨slot_for_aligned e.size,?_⟩
  rw [slot_for_toNat]
  omega

/-- How the entry of an object comes about in a move. -/
theorem Move.entry (move : Move op s s') {e' : Entry} (found : s'.alloc.live.get id = some e') :
    s.alloc.live.get id = some e' ∨ Reserved op id e' ∨ ∃ e, s.alloc.live.get id = some e ∧
      (op.commits = some id ∧ e' = { e with committed := true, reserved_at := none } ∨
        op.writes = some id ∧ e.committed = false ∧ ∃ stop now, e.written_until ≤ stop ∧
          e' = { e with written_until := stop, reserved_at := some now }) := by
  cases move with
  | cut absent fresh | reuse absent fresh =>
    rw [Table.get_insert] at found
    split at found
    · rename_i same
      obtain rfl := Option.some.inj found
      exact .inr (.inl (same ▸ fresh))
    · exact .inl found
  | recycle =>
    rw [Alloc.recycle,Table.get_remove] at found
    split at found
    · cases found
    · exact .inl found
  | commit there _ asked =>
    rw [Table.get_modify_of there] at found
    split at found
    · rename_i same
      subst same
      exact .inr (.inr ⟨_,there,.inl ⟨asked,(Option.some.inj found).symm⟩⟩)
    · exact .inl found
  | progress there uncommitted _ further asked =>
    rw [Table.get_modify_of there] at found
    split at found
    · rename_i same
      subst same
      exact .inr (.inr ⟨_,there,.inr ⟨asked,uncommitted,_,_,further,(Option.some.inj found).symm⟩⟩)
    · exact .inl found
  | write | read => exact .inl found

/-- What holds of every entry just reserved, and survives progress and commit, holds of all entries. -/
theorem Move.entries (move : Move op s s') {P : Entry → Prop}
    (before : ∀ id e, s.alloc.live.get id = some e → P e) (reserved : ∀ id e, Reserved op id e → P e)
    (committed : ∀ e, P e → P { e with committed := true, reserved_at := none })
    (progressed : ∀ e stop now, e.committed = false → P e → P { e with written_until := stop, reserved_at := some now }) :
    ∀ id e, s'.alloc.live.get id = some e → P e := by
  intro id e found
  rcases move.entry found with same | fresh | ⟨e₀,there,⟨_,rfl⟩ | ⟨_,uncommitted,stop,now,_,rfl⟩⟩
  · exact before id e same
  · exact reserved id e fresh
  · exact committed e₀ (before id e₀ there)
  · exact progressed e₀ stop now uncommitted (before id e₀ there)

theorem Move.settled (move : Move op s s') (settled : s.alloc.Settled) : s'.alloc.Settled := by
  refine move.entries settled (fun id e reserved committed => ?_) (fun e _ _ => rfl) (fun e stop now uncommitted _ committed => ?_)
  · rw [reserved.committed] at committed
    cases committed
  · rw [uncommitted] at committed
    cases committed

/-- Every move keeps the slots sound, unless a requested size wraps around. -/
theorem Move.sound (move : Move op s s') (fits : op.Fits) (sound : s.alloc.Sound) : s'.alloc.Sound := by
  have roomy := move.entries sound.fits (fun id e reserved => reserved.roomy fits) (fun _ fits => fits)
    (fun _ _ _ _ fits => fits)
  cases move with
  | @cut id e absent reserved start room =>
    have limit : ARENA_BYTES.toNat < 2^64 := by decide
    have top : (s.alloc.top + e.slot).toNat = s.alloc.top.toNat + e.slot.toNat := by
      rw [UInt64.toNat_add,Nat.mod_eq_of_lt (room.trans_lt limit)]
    have span : e.span = ⟨s.alloc.top.toNat,e.slot.toNat⟩ := by rw [Entry.span,start]
    constructor
    · rw [Alloc.regions_cut absent,top,span]
      exact sound.tiles.cut _
    · rw [top]
      exact room
    · rw [Alloc.regions_cut absent,span]
      exact Multiset.forall_mem_cons.mpr ⟨⟨sound.top_aligned,reserved.slot_aligned fits⟩,sound.aligned⟩
    · exact roomy
  | reuse absent reserved spare =>
    have same := Alloc.regions_reuse absent spare
    exact ⟨same ▸ sound.tiles,sound.room,same ▸ sound.aligned,roomy⟩
  | recycle found why =>
    have same := Alloc.regions_recycle found
    exact ⟨same ▸ sound.tiles,sound.room,same ▸ sound.aligned,roomy⟩
  | @commit id e found complete =>
    have same : Alloc.regions { s.alloc with live := s.alloc.live.modify id fun e =>
        { e with committed := true, reserved_at := none } } = s.alloc.regions := Alloc.regions_modify fun _ => rfl
    exact ⟨same ▸ sound.tiles,sound.room,same ▸ sound.aligned,roomy⟩
  | @progress id e stop now found uncommitted inside =>
    have same : Alloc.regions { s.alloc with live := s.alloc.live.modify id fun e =>
        { e with written_until := stop, reserved_at := some now } } = s.alloc.regions :=
      Alloc.regions_modify fun _ => rfl
    exact ⟨same ▸ sound.tiles,sound.room,same ▸ sound.aligned,roomy⟩
  | write | read => exact sound

/-- The stores that a sequence of operations can lead to, whatever order the
    reaper visits the entries in. -/
inductive Reaches (s : ArenaStore) : List Op → ArenaStore → Prop where
  | refl : Reaches s [] s
  | tail {ops : List Op} {t : ArenaStore} (before : Reaches s ops t) (order : Traversal ObjectId) (op : Op) :
      Reaches s (ops ++ [op]) (Outcome.state (apply order op t))

/-- Operations, the last first, each with the order in which it finds the entries to reap. -/
abbrev Steps := List (Traversal ObjectId × Op)

/-- The arena after some operations. -/
def after (s : ArenaStore) : Steps → ArenaStore
  | [] => s
  | (order,op) :: earlier => Outcome.state (apply order op (after s earlier))

theorem new_sound (token : String) : (new token).alloc.Sound := by
  constructor
  · exact Tiles.empty
  · exact Nat.zero_le _
  · intro span member
    exact absurd member (Multiset.notMem_zero span)
  · intro id e found
    cases found

theorem new_settled (token : String) : (new token).alloc.Settled := by
  intro id e found
  cases found

theorem Reaches.sound {s t : ArenaStore} {ops : List Op} (reaches : Reaches s ops t) (sound : s.alloc.Sound)
    (fits : ∀ op ∈ ops, op.Fits) : t.alloc.Sound := by
  induction reaches with
  | refl => exact sound
  | tail _ order op ih =>
    obtain ⟨earlier,last⟩ := List.forall_mem_append.mp fits
    exact (apply_ends order op _).moves.keeps (fun move kept => move.sound (last op (by simp)) kept) (ih earlier)

/-- No address inside an object wraps around. -/
theorem offset_exact {a : Alloc} (sound : a.Sound) (found : a.live.get id = some e)
    {rel : UInt64} (inside : rel.toNat ≤ e.size.toNat) : (e.offset + rel).toNat = e.offset.toNat + rel.toNat := by
  have limit : ARENA_BYTES.toNat < 2^64 := by decide
  have roomy := sound.fits id e found
  have stop := sound.span_stop found
  rw [UInt64.toNat_add,Nat.mod_eq_of_lt (by omega)]

/-- What belongs to an object lies in its slot. -/
theorem Own.within {s : ArenaStore} {span : Span} (own : Own op s span) (sound : s.alloc.Sound) :
    ∃ id e, op.target = some id ∧ s.alloc.live.get id = some e ∧ span.Within e.span ∧
      span.stop ≤ ARENA_BYTES.toNat := by
  obtain ⟨id,e,rel,target,found,start,length⟩ := own
  have roomy := sound.fits id e found
  have stop := sound.span_stop found
  rw [offset_exact sound found (Nat.le_of_add_right_le length)] at start
  refine ⟨id,e,target,found,⟨?_,?_⟩,?_⟩
  · show e.offset.toNat ≤ span.offset
    omega
  · show span.offset + span.len ≤ e.offset.toNat + e.slot.toNat
    omega
  · show span.offset + span.len ≤ ARENA_BYTES.toNat
    omega

/-- Runs operations one after the other, reaping in the order of the ids. -/
def replay (token : String) (ops : List Op) : ArenaStore :=
  ops.foldl (fun s op => Outcome.state (apply .increasing op s)) (new token)

theorem replay_reaches (token : String) (ops : List Op) : Reaches (new token) ops (replay token ops) := by
  induction ops using List.reverseRecOn with
  | nil => exact .refl
  | append_singleton ops op ih =>
    rw [replay,List.foldl_append]
    exact ih.tail .increasing op

/-- A streamed object and a direct one, the first released and its slot taken again. -/
def filledOps : List Op :=
  [.reserve ⟨.replicate 32 1⟩ 3 .RawBytes (.replicate 32 0) .Streamed 0 0 ⟨.replicate 16 1⟩,
   .write_chunk ⟨.replicate 32 1⟩ ⟨.replicate 16 1⟩ 0 ⟨[7,8,9],by decide⟩ 1,
   .commit ⟨.replicate 32 1⟩ ⟨.replicate 16 1⟩,
   .read_chunk ⟨.replicate 32 1⟩ 1 2,
   .reserve ⟨.replicate 32 2⟩ 20 .RawBytes (.replicate 32 0) .Direct 2 2 ⟨.replicate 16 2⟩,
   .release ⟨.replicate 32 1⟩,
   .reserve ⟨.replicate 32 3⟩ 8 .RawBytes (.replicate 32 0) .Direct 3 3 ⟨.replicate 16 3⟩]

theorem filled_fits : ∀ op ∈ filledOps, op.Fits := by decide

/-- The slots in use and the slots on the free lists tile the arena up to its top. -/
theorem run_tiles {token : String} {ops : List Op} {s : ArenaStore} (run : Reaches (new token) ops s)
    (fits : ∀ op ∈ ops, op.Fits) :
    Tiles s.alloc.regions s.alloc.top.toNat ∧ s.alloc.regions.Pairwise Span.Apart ∧
      (∀ span ∈ s.alloc.regions, span.offset % 8 = 0 ∧ span.len % 8 = 0 ∧ 0 < span.len) ∧
      (s.alloc.regions.map Span.len).sum = s.alloc.top.toNat ∧ s.alloc.top.toNat ≤ ARENA_BYTES.toNat ∧
      ∀ id e, s.alloc.live.get id = some e → e.size.toNat ≤ e.slot.toNat := by
  have sound := run.sound (new_sound token) fits
  exact ⟨sound.tiles,sound.tiles.pairwise,sound.aligned,sound.tiles.sum_len,sound.room,sound.fits⟩

theorem filled_tiles :
    (∀ op ∈ filledOps, op.Fits) ∧ (replay "arena" filledOps).alloc.top = 32 ∧
      Tiles (replay "arena" filledOps).alloc.regions (replay "arena" filledOps).alloc.top.toNat :=
  ⟨filled_fits,by decide +kernel,(run_tiles (replay_reaches "arena" filledOps) filled_fits).1⟩

/-- Every entry lies in the arena with room for its object, and every operation
    accesses only bytes of the slot it is about. -/
theorem run_in_bounds {token : String} {ops : List Op} {s : ArenaStore} (run : Reaches (new token) ops s)
    (fits : ∀ op ∈ ops, op.Fits) :
    (∀ id e, s.alloc.live.get id = some e →
      e.size.toNat ≤ e.slot.toNat ∧ e.offset.toNat + e.slot.toNat ≤ ARENA_BYTES.toNat) ∧
    ∀ (order : Traversal ObjectId) (op : Op), op.Fits →
      ∃ spans, (Outcome.state (apply order op s)).map.touched = s.map.touched ++ spans ∧
        ∀ span ∈ spans, ∃ id e, op.target = some id ∧ (Outcome.state (apply order op s)).alloc.live.get id = some e ∧
          span.Within e.span ∧ span.stop ≤ ARENA_BYTES.toNat := by
  have sound := run.sound (new_sound token) fits
  refine ⟨fun id e found => ⟨sound.fits id e found,sound.span_stop found⟩,fun order op fit => ?_⟩
  have ends := apply_ends order op s
  have soundAfter := ends.moves.keeps (fun move kept => move.sound fit kept) sound
  obtain ⟨spans,logged,own⟩ := ends.touched
  exact ⟨spans,logged,fun span member => (own span member).within soundAfter⟩

theorem filled_in_bounds :
    (∀ op ∈ filledOps, op.Fits) ∧ (replay "arena" filledOps).map.touched = [⟨0,3⟩,⟨1,2⟩] ∧
      ∀ id e, (replay "arena" filledOps).alloc.live.get id = some e →
        e.size.toNat ≤ e.slot.toNat ∧ e.offset.toNat + e.slot.toNat ≤ ARENA_BYTES.toNat :=
  ⟨filled_fits,by decide +kernel,(run_in_bounds (replay_reaches "arena" filledOps) filled_fits).1⟩

/-- A reservation of 2^64 - 1 bytes, whose slot wraps around to nothing, and a read behind the arena. -/
def wrappedOps : List Op :=
  [.reserve ⟨.replicate 32 1⟩ 0xffffffffffffffff .RawBytes (.replicate 32 0) .Direct 0 0 ⟨.replicate 16 1⟩,
   .commit ⟨.replicate 32 1⟩ ⟨.replicate 16 1⟩,
   .read_chunk ⟨.replicate 32 1⟩ ARENA_BYTES 1]

/-- The object does not fit in its slot, and bytes outside the slot and the arena are accessed. -/
theorem wrapped_escapes :
    Reaches (new "arena") wrappedOps (replay "arena" wrappedOps) ∧
      (∃ e, (replay "arena" wrappedOps).alloc.live.get ⟨.replicate 32 1⟩ = some e ∧ ¬ e.size.toNat ≤ e.slot.toNat ∧
        ∃ span ∈ (replay "arena" wrappedOps).map.touched, ¬ span.Within e.span) ∧
      ∃ span ∈ (replay "arena" wrappedOps).map.touched, ¬ span.stop ≤ ARENA_BYTES.toNat := by
  have found : (replay "arena" wrappedOps).alloc.live.get ⟨.replicate 32 1⟩ = some
      ⟨0,0xffffffffffffffff,0,.RawBytes,.replicate 32 0,⟨.replicate 16 1⟩,.Direct,0,true,none⟩ := by decide +kernel
  have touched : (replay "arena" wrappedOps).map.touched = [⟨ARENA_BYTES.toNat,1⟩] := by decide +kernel
  refine ⟨replay_reaches "arena" wrappedOps,⟨_,found,by decide,?_⟩,?_⟩
  · rw [touched]
    exact ⟨_,List.mem_singleton_self _,by decide⟩
  · rw [touched]
    exact ⟨_,List.mem_singleton_self _,by decide⟩

/-! ### Entries as long as they live -/

/-- The second entry is the first one later. -/
structure Grows (e e' : Entry) : Prop where
  info : e'.toMeta = e.toMeta
  mode : e'.mode = e.mode
  reservation : e'.reservation = e.reservation
  committed : e.committed = true → e'.committed = true
  written : e.written_until ≤ e'.written_until

theorem Grows.refl (e : Entry) : Grows e e := ⟨rfl,rfl,rfl,id,UInt64.le_refl _⟩

theorem Grows.trans {e₁ e₂ e₃ : Entry} (first : Grows e₁ e₂) (second : Grows e₂ e₃) : Grows e₁ e₃ where
  info := second.info.trans first.info
  mode := second.mode.trans first.mode
  reservation := second.reservation.trans first.reservation
  committed done := second.committed (first.committed done)
  written := UInt64.le_trans first.written second.written

/-- Where the entry of an object came from that is there after an operation. -/
inductive Origin (op : Op) (s : ArenaStore) (id : ObjectId) (e' : Entry) : Prop where
  | kept (before : s.alloc.live.get id = some e')
  | grown {e : Entry} (before : s.alloc.live.get id = some e) (grows : Grows e e') (asked : op.writes = some id)
      (commits : e'.committed = true → op.commits = some id)
  | reserved (asked : op.target = some id) (drawn : op.draws = some e'.reservation)
      (commits : e'.committed = true → op.commits = some id)

theorem Moves.origin (moves : Moves op s s') {e' : Entry} (found : s'.alloc.live.get id = some e') : Origin op s id e' := by
  induction moves generalizing e' with
  | refl => exact .kept found
  | tail _ move ih =>
    rcases move.entry found with same | fresh | ⟨e,there,changed⟩
    · exact ih same
    · exact .reserved fresh.target fresh.drawn fun done => by cases fresh.committed.symm.trans done
    -- a commit or a chunk changes the entry that the moves before have left
    obtain ⟨grows,asked,commits⟩ : Grows e e' ∧ op.writes = some id ∧ (e'.committed = true → op.commits = some id) := by
      rcases changed with ⟨asked,rfl⟩ | ⟨asked,uncommitted,stop,now,further,rfl⟩
      · exact ⟨⟨rfl,rfl,rfl,fun _ => rfl,UInt64.le_refl _⟩,Op.writes_of_commits asked,fun _ => asked⟩
      · exact ⟨⟨rfl,rfl,rfl,fun done => done,further⟩,asked,fun done => by cases uncommitted.symm.trans done⟩
    cases ih there with
    | kept before => exact .grown before grows asked commits
    | grown before earlier => exact .grown before (earlier.trans grows) asked commits
    | reserved target drawn => exact .reserved target (by rw [drawn,grows.reservation]) commits

/-! ### Committed objects -/

/-- The object whose slot an operation gives back on request. -/
def Op.drops : Op → Option ObjectId
  | .rollback id _ | .release id => some id
  | _ => none

theorem Recycled.drops (why : Recycled op id e) (waits : e.reserved_at = none) : op.drops = some id := by
  cases why with
  | expired stamped =>
    rw [waits] at stamped
    cases stamped
  | released asked => rw [asked]; rfl
  | rolled_back asked => rw [asked]; rfl

/-- A committed entry stays as it is until it is dropped on request. -/
theorem Move.entry_stays (move : Move op s s') (settled : s.alloc.Settled) (found : s.alloc.live.get id = some e)
    (committed : e.committed = true) (kept : op.drops ≠ some id) : s'.alloc.live.get id = some e := by
  have waits := settled id e found committed
  cases move with
  | @cut id' e' absent | @reuse id' e' _ absent =>
    have different : id ≠ id' := by
      rintro rfl
      rw [absent] at found
      cases found
    rw [Table.get_insert,if_neg different,found]
  | @recycle id' e' found' why =>
    have different : id ≠ id' := by
      rintro rfl
      obtain rfl := Option.some.inj (found.symm.trans found')
      exact kept (why.drops waits)
    rw [Alloc.recycle,Table.get_remove,if_neg different,found]
  | @commit id' e' found' complete =>
    rw [Table.get_modify_of found']
    split
    · rename_i same
      obtain rfl := Option.some.inj (found.symm.trans (same ▸ found'))
      rw [← committed,← waits]
    · exact found
  | @progress id' e' stop now found' uncommitted inside =>
    have different : id ≠ id' := by
      rintro rfl
      obtain rfl := Option.some.inj (found.symm.trans found')
      rw [committed] at uncommitted
      cases uncommitted
    rw [Table.get_modify_of found',if_neg different,found]
  | write | read => exact found

/-- What is written into one object leaves the slot of another as it is. -/
theorem write_apart {s : ArenaStore} (sound : s.alloc.Sound) {id id' : ObjectId} {e e' : Entry}
    (found : s.alloc.live.get id = some e) (found' : s.alloc.live.get id' = some e') (different : id' ≠ id) {rel : UInt64}
    {bytes : List UInt8} (inside : rel.toNat + bytes.length ≤ e'.size.toNat) {i : Nat} (member : e.span.Contains i) :
    (s.map.write (e'.offset + rel).toNat bytes).byte i = s.map.byte i := by
  refine Memory.byte_write_outside _ fun written => ?_
  have start := offset_exact sound found' (Nat.le_of_add_right_le inside)
  have roomy := sound.fits id' e' found'
  have theirs : Span.Within ⟨(e'.offset + rel).toNat,bytes.length⟩ e'.span := by
    rw [start]
    constructor
    · show e'.offset.toNat ≤ e'.offset.toNat + rel.toNat
      omega
    · show e'.offset.toNat + rel.toNat + bytes.length ≤ e'.offset.toNat + e'.slot.toNat
      omega
  exact sound.apart found found' different i member (theirs.contains written)

/-- A move writes to no committed object. -/
theorem Move.bytes_stay (move : Move op s s') (sound : s.alloc.Sound) (found : s.alloc.live.get id = some e)
    (committed : e.committed = true) : s'.map.slice e.content = s.map.slice e.content := by
  cases move with
  | @write id' e' rel bytes found' uncommitted inside =>
    have different : id' ≠ id := by
      rintro rfl
      obtain rfl := Option.some.inj (found.symm.trans found')
      rw [committed] at uncommitted
      cases uncommitted
    have mine : e.content.Within e.span := ⟨le_rfl,Nat.add_le_add_left (sound.fits id e found) _⟩
    exact Memory.slice_congr fun i member => write_apart sound found found' different inside (mine.contains member)
  | _ => rfl

theorem Moves.settled (moves : Moves op s s') (settled : s.alloc.Settled) :
    s'.alloc.Settled := moves.keeps (fun move => move.settled) settled

theorem Reaches.settled {s t : ArenaStore} {ops : List Op} (reaches : Reaches s ops t) (settled : s.alloc.Settled) :
    t.alloc.Settled := by
  induction reaches with
  | refl => exact settled
  | tail _ order op ih => exact (apply_ends order op _).moves.settled ih

theorem Moves.entry_stays (moves : Moves op s s') (settled : s.alloc.Settled) (found : s.alloc.live.get id = some e)
    (committed : e.committed = true) (kept : op.drops ≠ some id) : s'.alloc.live.get id = some e :=
  (moves.keeps (P := fun t => t.alloc.Settled ∧ t.alloc.live.get id = some e)
    (fun move now => ⟨move.settled now.1,move.entry_stays now.1 now.2 committed kept⟩) ⟨settled,found⟩).2

/-- A committed object keeps its entry and its bytes until it is dropped on request. -/
theorem Reaches.committed_stays {s t : ArenaStore} {ops : List Op} (reaches : Reaches s ops t) (sound : s.alloc.Sound)
    (settled : s.alloc.Settled) (fits : ∀ op ∈ ops, op.Fits)
    (found : s.alloc.live.get id = some e) (committed : e.committed = true) (kept : ∀ op ∈ ops, op.drops ≠ some id) :
    t.alloc.live.get id = some e ∧ t.map.slice e.content = s.map.slice e.content := by
  suffices all : t.alloc.Sound ∧ t.alloc.Settled ∧ t.alloc.live.get id = some e ∧
      t.map.slice e.content = s.map.slice e.content from all.2.2
  induction reaches with
  | refl => exact ⟨sound,settled,found,rfl⟩
  | @tail ops t before order op ih =>
    obtain ⟨earlier,last⟩ := List.forall_mem_append.mp fits
    obtain ⟨keptEarlier,keptLast⟩ := List.forall_mem_append.mp kept
    refine (apply_ends order op t).moves.keeps (P := fun u => u.alloc.Sound ∧ u.alloc.Settled ∧
      u.alloc.live.get id = some e ∧ u.map.slice e.content = s.map.slice e.content) (fun move now => ?_)
      (ih earlier keptEarlier)
    obtain ⟨sound,settled,found,same⟩ := now
    exact ⟨move.sound (last op (by simp)) sound,move.settled settled,
      move.entry_stays settled found committed (keptLast op (by simp)),(move.bytes_stay sound found committed).trans same⟩

end Crayon.ArenaStore
