import Mathlib
import LedgerSearch.Proofs.Wire.BigEndian
import LedgerSearch.Wire.Frame

/-
  Frames are read off a stream however its bytes are cut into reads. What `gather` finds depends on
  the bytes alone; so do the answers of successive calls of `next`: the frames in their order, then
  how the stream ends (`FrameStream.calls_frames`). Every sequence of bytes is made up this way
  (`FrameStream.exists_ending`).
-/

namespace LedgerSearch.Wire

/-! ## Bytes in reads -/

/-- The reads hold these bytes, and none of them is empty. -/
def Carries (input : List Chunk) (bs : Bytes) : Prop :=
  ∃ cuts : List Bytes, input = cuts.map Chunk.data ∧ (∀ cut ∈ cuts, cut ≠ []) ∧ cuts.flatten = bs

theorem carries_nil : Carries [] [] := ⟨[], rfl, List.forall_mem_nil _, rfl⟩

theorem Carries.cons {cut bs : Bytes} {input : List Chunk} (hcut : cut ≠ [])
    (h : Carries input bs) : Carries (.data cut :: input) (cut ++ bs) := by
  obtain ⟨cuts, rfl, hcuts, rfl⟩ := h
  exact ⟨cut :: cuts, rfl, List.forall_mem_cons.mpr ⟨hcut, hcuts⟩, rfl⟩

theorem gather_data {need : Nat} {bs : Bytes} (h : bs ≠ []) (rest : List Chunk) :
    gather need (.data bs :: rest) =
      if need < bs.length then (bs.take need, none, .data (bs.drop need) :: rest)
      else if need = bs.length then (bs, none, rest)
      else (bs ++ (gather (need - bs.length) rest).1, (gather (need - bs.length) rest).2) := by
  cases bs with
  | nil => exact absurd rfl h
  | cons b bs =>
    rw [gather]
    exact h

/-- The first bytes are found, and those behind them are left. By induction on the reads: the first
    one ends with these bytes, before they do, or behind them. -/
theorem gather_append {head tail : Bytes} {input : List Chunk} (hhead : head ≠ [])
    (h : Carries input (head ++ tail)) :
    ∃ rest, gather head.length input = (head, none, rest) ∧ Carries rest tail := by
  obtain ⟨cuts, rfl, hcuts, hflatten⟩ := h
  induction cuts generalizing head with
  | nil => exact absurd (List.append_eq_nil_iff.mp hflatten.symm).1 hhead
  | cons cut cuts ih =>
    obtain ⟨hcut, hcuts⟩ := List.forall_mem_cons.mp hcuts
    have hrest : Carries (cuts.map Chunk.data) cuts.flatten := ⟨cuts, rfl, hcuts, rfl⟩
    rw [List.map_cons, gather_data hcut]
    obtain rfl | hne := eq_or_ne cut head
    · have htail : cuts.flatten = tail := List.append_cancel_left hflatten
      rw [if_neg (Nat.lt_irrefl _), if_pos rfl]
      exact ⟨_, rfl, htail ▸ hrest⟩
    obtain ⟨more, rfl, hmore⟩ | ⟨more, rfl, rfl⟩ := List.append_eq_append_iff.mp hflatten
    · have hnil : more ≠ [] := by
        rintro rfl
        exact hne (List.append_nil cut).symm
      obtain ⟨rest, hgather, hcarries⟩ := ih hnil hcuts hmore
      have hpos := List.length_pos_iff.mpr hnil
      rw [List.length_append, if_neg (by omega), if_neg (by omega), Nat.add_sub_cancel_left,
        hgather]
      exact ⟨rest, rfl, hcarries⟩
    · have hnil : more ≠ [] := by
        rintro rfl
        exact hne (List.append_nil head)
      have hpos := List.length_pos_iff.mpr hnil
      rw [List.length_append, if_pos (by omega), List.take_left, List.drop_left]
      exact ⟨_, rfl, hrest.cons hnil⟩

/-- Fewer bytes than are needed are found all, and none is left. -/
theorem gather_of_lt {need : Nat} {bs : Bytes} {input : List Chunk} (hlt : bs.length < need)
    (h : Carries input bs) : gather need input = (bs, some .ended, []) := by
  obtain ⟨cuts, rfl, hcuts, rfl⟩ := h
  induction cuts generalizing need with
  | nil => rfl
  | cons cut cuts ih =>
    obtain ⟨hcut, hcuts⟩ := List.forall_mem_cons.mp hcuts
    rw [List.flatten_cons, List.length_append] at hlt
    rw [List.map_cons, gather_data hcut, if_neg (by omega), if_neg (by omega),
      ih hcuts (by omega)]
    rfl

namespace FrameStream

/-! ## Frames -/

/-- A length as it stands before a body, with the bit that carries nothing set or not. -/
def lengthWord (reserved : Bool) (length : Nat) : Bytes :=
  bigEndianBytes 4 ((if reserved then topBit else 0) + length)

theorem length_lengthWord (reserved : Bool) (length : Nat) :
    (lengthWord reserved length).length = 4 := length_bigEndianBytes 4 _

theorem bigEndianNat_lengthWord {length : Nat} (h : length < topBit) (reserved : Bool) :
    bigEndianNat (lengthWord reserved length) % topBit = length := by
  rw [lengthWord, bigEndianNat_bigEndianBytes]
  unfold topBit at *
  split <;> omega

/-- A frame that a stream with this bound lets through. -/
structure Frame (max : Nat) where
  reserved : Bool
  body : Bytes
  body_ne_nil : body ≠ []
  length_le : body.length ≤ max
  length_lt : body.length < topBit

/-- The length word, then the body. -/
def Frame.bytes {max : Nat} (f : Frame max) : Bytes := lengthWord f.reserved f.body.length ++ f.body

variable {max length : Nat} {input : List Chunk} {tail : Bytes} {reserved : Bool}

/-- What a length leads to, whichever reads it came in. -/
theorem next_lengthWord (max frames : Nat) (h : Carries input (lengthWord reserved length ++ tail))
    (hlt : length < topBit) :
    ∃ rest, Carries rest tail ∧ next ⟨input, max, frames⟩ =
      if length = 0 then (.ok none, ⟨rest, max, frames⟩)
      else if max < length then
        (.error (.decode (.lengthExceeded "frame" length max)), ⟨rest, max, frames⟩)
      else body ⟨rest, max, frames⟩ length := by
  have hword : lengthWord reserved length ≠ [] :=
    List.ne_nil_of_length_pos (by rw [length_lengthWord]; decide)
  obtain ⟨rest, hgather, hrest⟩ := gather_append hword h
  rw [length_lengthWord] at hgather
  refine ⟨rest, hrest, ?_⟩
  unfold next
  simp only [hgather, bigEndianNat_lengthWord hlt]

theorem next_frame (frames : Nat) (f : Frame max) (h : Carries input (f.bytes ++ tail)) :
    ∃ rest, Carries rest tail ∧
      next ⟨input, max, frames⟩ = (.ok (some f.body), ⟨rest, max, frames + 1⟩) := by
  rw [Frame.bytes, List.append_assoc] at h
  obtain ⟨mid, hmid, hnext⟩ := next_lengthWord max frames h f.length_lt
  obtain ⟨rest, hgather, hrest⟩ := gather_append f.body_ne_nil hmid
  refine ⟨rest, hrest, ?_⟩
  have hle := f.length_le
  rw [hnext, if_neg (mt List.length_eq_zero_iff.mp f.body_ne_nil), if_neg (by omega), body, hgather]

/-- How a stream ends, by the bytes that stand where a length would: what is answered, and the bytes
    that are left unread then. -/
inductive Ending (max : Nat) : Bytes → Except Error (Option Bytes) → Bytes → Prop
  | finished : Ending max [] (.ok none) []
  | zero (reserved : Bool) (rest : Bytes) :
    Ending max (lengthWord reserved 0 ++ rest) (.ok none) rest
  | inLength {part : Bytes} (hpart : part ≠ []) (hlt : part.length < 4) :
    Ending max part (.error (.decode (.unexpectedEnd part.length (4 - part.length)))) []
  | inBody (reserved : Bool) {length : Nat} {part : Bytes} (hle : length ≤ max)
      (htop : length < topBit) (hlt : part.length < length) :
    Ending max (lengthWord reserved length ++ part)
      (.error (.decode (.unexpectedEnd part.length (length - part.length)))) []
  | tooLong (reserved : Bool) {length : Nat} (rest : Bytes) (hlt : max < length)
      (htop : length < topBit) :
    Ending max (lengthWord reserved length ++ rest)
      (.error (.decode (.lengthExceeded "frame" length max))) rest

theorem exists_lengthWord {word : Bytes} (h : word.length = 4) :
    ∃ reserved length, length < topBit ∧ word = lengthWord reserved length := by
  have hlt := bigEndianNat_lt word
  have hword := bigEndianBytes_bigEndianNat word
  rw [h] at hlt hword
  unfold lengthWord topBit
  obtain htop | htop := Nat.lt_or_ge (bigEndianNat word) 0x80000000
  · exact ⟨false, bigEndianNat word, htop, by rw [if_neg (by decide), Nat.zero_add, hword]⟩
  · refine ⟨true, bigEndianNat word - 0x80000000, by omega, ?_⟩
    rw [if_pos rfl, Nat.add_sub_cancel' htop, hword]

/-- At every place of a stream there stands a frame or an end. -/
theorem frame_or_ending (max : Nat) (bs : Bytes) :
    (∃ (f : Frame max) (tail : Bytes), bs = f.bytes ++ tail) ∨
      ∃ answer unread, Ending max bs answer unread := by
  by_cases hnil : bs = []
  · subst hnil
    exact .inr ⟨_, _, .finished⟩
  by_cases hshort : bs.length < 4
  · exact .inr ⟨_, _, .inLength hnil hshort⟩
  have hlen : (bs.take 4).length = 4 := List.length_take_of_le (by omega)
  obtain ⟨reserved, length, htop, hword⟩ := exists_lengthWord hlen
  obtain ⟨rest, rfl⟩ : ∃ rest, bs = lengthWord reserved length ++ rest :=
    ⟨bs.drop 4, by rw [← hword, List.take_append_drop]⟩
  obtain hmax | hmax := Nat.lt_or_ge max length
  · exact .inr ⟨_, _, .tooLong reserved rest hmax htop⟩
  obtain hcut | hcut := Nat.lt_or_ge rest.length length
  · exact .inr ⟨_, _, .inBody reserved hmax htop hcut⟩
  obtain rfl | hpos := Nat.eq_zero_or_pos length
  · exact .inr ⟨_, _, .zero reserved rest⟩
  obtain ⟨body, tail, rfl, rfl⟩ : ∃ body tail, rest = body ++ tail ∧ body.length = length :=
    ⟨rest.take length, rest.drop length, (List.take_append_drop _ _).symm,
      List.length_take_of_le hcut⟩
  exact .inl ⟨⟨reserved, body, List.ne_nil_of_length_pos hpos, hmax, htop⟩, tail,
    (List.append_assoc _ _ _).symm⟩

/-- Every stream is frames and then an end: the ways to end are all there are. -/
theorem exists_ending (max : Nat) (bs : Bytes) :
    ∃ (fs : List (Frame max)) (tail : Bytes), bs = fs.flatMap Frame.bytes ++ tail ∧
      ∃ answer unread, Ending max tail answer unread := by
  induction hn : bs.length using Nat.strong_induction_on generalizing bs with
  | h n ih =>
    obtain ⟨f, rest, rfl⟩ | hending := frame_or_ending max bs
    · have hlt : rest.length < n := by
        rw [← hn, Frame.bytes, List.length_append, List.length_append, length_lengthWord]
        omega
      obtain ⟨fs, tail, rfl, hending⟩ := ih _ hlt rest rfl
      exact ⟨f :: fs, tail, by rw [List.flatMap_cons, List.append_assoc], hending⟩
    · exact ⟨[], bs, rfl, hending⟩

theorem next_ending {answer : Except Error (Option Bytes)} {unread : Bytes} (frames : Nat)
    (hending : Ending max tail answer unread) (h : Carries input tail) :
    ∃ rest, Carries rest unread ∧ next ⟨input, max, frames⟩ = (answer, ⟨rest, max, frames⟩) := by
  cases hending with
  | finished =>
    refine ⟨[], carries_nil, ?_⟩
    rw [next, gather_of_lt (by decide) h]
    rfl
  | zero reserved =>
    obtain ⟨rest, hrest, hnext⟩ := next_lengthWord max frames h (by decide)
    exact ⟨rest, hrest, hnext⟩
  | inLength hpart hlt =>
    refine ⟨[], carries_nil, ?_⟩
    rw [next, gather_of_lt hlt h]
    simp only [hpart, if_false, truncated]
  | inBody reserved hle htop hlt =>
    obtain ⟨rest, hrest, hnext⟩ := next_lengthWord max frames h htop
    refine ⟨[], carries_nil, ?_⟩
    rw [hnext, if_neg (by omega), if_neg (by omega), body, gather_of_lt hlt hrest]
    rfl
  | tooLong reserved rest hlt htop =>
    obtain ⟨rest, hrest, hnext⟩ := next_lengthWord max frames h htop
    refine ⟨rest, hrest, ?_⟩
    rw [hnext, if_neg (by omega), if_pos hlt]

/-! ## Successive calls -/

/-- The answers of so many calls, one after the other, and the stream behind them. -/
def calls : Nat → FrameStream → List (Except Error (Option Bytes)) × FrameStream
  | 0, s => ([], s)
  | k + 1, s => (s.next.1 :: (calls k s.next.2).1, (calls k s.next.2).2)

variable {fs : List (Frame max)} {answer : Except Error (Option Bytes)} {unread : Bytes}

/-- Frames at the front of a stream are what the calls give, one each. -/
theorem calls_append (frames : Nat) (h : Carries input (fs.flatMap Frame.bytes ++ tail)) :
    ∃ rest, Carries rest tail ∧ calls fs.length ⟨input, max, frames⟩ =
      (fs.map fun f => .ok (some f.body), ⟨rest, max, frames + fs.length⟩) := by
  induction fs generalizing input frames with
  | nil => exact ⟨input, h, rfl⟩
  | cons f fs ih =>
    rw [List.flatMap_cons, List.append_assoc] at h
    obtain ⟨mid, hmid, hnext⟩ := next_frame frames f h
    obtain ⟨rest, hrest, hcalls⟩ := ih (frames + 1) hmid
    refine ⟨rest, hrest, ?_⟩
    rw [List.length_cons, calls, hnext, hcalls, Nat.add_right_comm, List.map_cons, Nat.add_assoc]

theorem calls_add (j k : Nat) (s : FrameStream) :
    calls (j + k) s =
      ((calls j s).1 ++ (calls k (calls j s).2).1, (calls k (calls j s).2).2) := by
  induction j generalizing s with
  | zero => rw [Nat.zero_add]; rfl
  | succ j ih => rw [Nat.add_right_comm, calls, ih]; rfl

/-- However the bytes of a stream are cut into reads, the calls give its frames in their order and
    then how it ends, and each frame is counted when it was given. -/
theorem calls_frames (h : Carries input (fs.flatMap Frame.bytes ++ tail))
    (hending : Ending max tail answer unread) :
    (∀ k ≤ fs.length, (calls k ⟨input, max, 0⟩).1 = (fs.take k).map (fun f => .ok (some f.body)) ∧
      (calls k ⟨input, max, 0⟩).2.frames = k) ∧
    ∃ rest, Carries rest unread ∧ calls (fs.length + 1) ⟨input, max, 0⟩ =
      (fs.map (fun f => .ok (some f.body)) ++ [answer], ⟨rest, max, fs.length⟩) := by
  constructor
  · intro k hk
    have hsplit : fs.flatMap Frame.bytes ++ tail =
        (fs.take k).flatMap Frame.bytes ++ ((fs.drop k).flatMap Frame.bytes ++ tail) := by
      rw [← List.append_assoc, ← List.flatMap_append, List.take_append_drop]
    obtain ⟨rest, -, hcalls⟩ := calls_append 0 (hsplit ▸ h)
    rw [List.length_take_of_le hk] at hcalls
    rw [hcalls]
    exact ⟨rfl, Nat.zero_add k⟩
  · obtain ⟨mid, hmid, hcalls⟩ := calls_append 0 h
    obtain ⟨rest, hrest, hnext⟩ := next_ending (0 + fs.length) hending hmid
    refine ⟨rest, hrest, ?_⟩
    rw [calls_add, hcalls, calls, hnext, Nat.zero_add]
    rfl

/-- Two frames and the beginning of a third, cut into reads that end elsewhere. -/
theorem calls_frames_cut :
    ∃ rest, Carries rest [] ∧
      calls 3 ⟨[.data [128], .data [0, 0], .data [2, 7], .data [8, 0, 0],
          .data [0, 1, 9, 0, 0, 0, 5, 1]], 8, 0⟩ =
        ([.ok (some [7, 8]), .ok (some [9]), .error (.decode (.unexpectedEnd 1 4))],
          ⟨rest, 8, 2⟩) := by
  have hinput : Carries [.data [128], .data [0, 0], .data [2, 7], .data [8, 0, 0],
      .data [0, 1, 9, 0, 0, 0, 5, 1]]
      (([⟨true, [7, 8], by decide, by decide, by decide⟩,
        ⟨false, [9], by decide, by decide, by decide⟩] : List (Frame 8)).flatMap Frame.bytes ++
          (lengthWord false 5 ++ [1])) :=
    ⟨[[128], [0, 0], [2, 7], [8, 0, 0], [0, 1, 9, 0, 0, 0, 5, 1]], rfl, by decide, by decide⟩
  exact (calls_frames hinput (.inBody false (by decide) (by decide) (by decide))).2

end FrameStream

end LedgerSearch.Wire
