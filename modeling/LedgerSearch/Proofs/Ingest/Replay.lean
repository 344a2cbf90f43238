import Mathlib
import LedgerSearch.Memory.World
import LedgerSearch.Proofs.Delivery.Endings
import LedgerSearch.Proofs.LedgerClose.FrameCounts
import LedgerSearch.Proofs.Serialize.Unindexable
import LedgerSearch.Replay

/-
  What a replay does with a stream of frames. Each frame that decodes is handled before the next one
  is looked at: its ledger is made into documents, counted, and written once. The replay ends with
  the stream or at the first frame that does not decode (`Replay.run_handles`).
-/

namespace LedgerSearch

open Program

/-! ## All frames of a stream -/

namespace Wire.FrameStream

variable {s s' : FrameStream}

theorem all_of_frame {bs : Bytes} (h : s.next = (.ok (some bs), s')) :
    s.all = (bs :: s'.all.1, s'.all.2) := by
  rw [all]
  split
  · next heq => rw [h] at heq; cases heq
  · next heq => rw [h] at heq; cases heq
  · next heq =>
    rw [h] at heq
    cases heq
    rfl

theorem all_of_end (h : s.next = (.ok none, s')) : s.all = ([], .ok ()) := by
  rw [all]
  split
  · next heq => rw [h] at heq; cases heq
  · rfl
  · next heq => rw [h] at heq; cases heq

theorem all_of_error {e : Error} (h : s.next = (.error e, s')) : s.all = ([], .error e) := by
  rw [all]
  split
  · next heq =>
    rw [h] at heq
    cases heq
    rfl
  · next heq => rw [h] at heq; cases heq
  · next heq => rw [h] at heq; cases heq

variable {max : Nat} {input : List Chunk} {fs : List (Frame max)} {tail unread : Bytes}
  {answer : Except Error (Option Bytes)}

/-- A stream ends by itself or with an error. -/
theorem Ending.answer_eq (h : Ending max tail answer unread) :
    answer = .ok none ∨ ∃ e, answer = .error e := by
  cases h with
  | finished => exact .inl rfl
  | zero => exact .inl rfl
  | inLength => exact .inr ⟨_, rfl⟩
  | inBody => exact .inr ⟨_, rfl⟩
  | tooLong => exact .inr ⟨_, rfl⟩

/-- One frame, its length in one read and its body in another. -/
theorem Frame.carries (f : Frame max) :
    Carries [.data (lengthWord f.reserved f.body.length), .data f.body]
      ([f].flatMap Frame.bytes ++ []) := by
  have hword : lengthWord f.reserved f.body.length ≠ [] :=
    List.ne_nil_of_length_pos (by rw [length_lengthWord]; decide)
  refine ⟨[lengthWord f.reserved f.body.length, f.body], rfl, ?_, ?_⟩
  · exact List.forall_mem_cons.mpr ⟨hword, List.forall_mem_singleton.mpr f.body_ne_nil⟩
  · simp [Frame.bytes]

/-- However its bytes are cut into reads, all of a stream are its frames, and it ends as it does. -/
theorem all_frames (frames : Nat) (h : Carries input (fs.flatMap Frame.bytes ++ tail))
    (hending : Ending max tail answer unread) :
    all ⟨input, max, frames⟩ = (fs.map (·.body), answer.map fun _ => ()) := by
  induction fs generalizing input frames with
  | nil =>
    obtain ⟨rest, -, hnext⟩ := next_ending frames hending h
    rcases hending.answer_eq with rfl | ⟨e, rfl⟩
    · exact all_of_end hnext
    · exact all_of_error hnext
  | cons f fs ih =>
    rw [List.flatMap_cons, List.append_assoc] at h
    obtain ⟨rest, hrest, hnext⟩ := next_frame frames f h
    rw [all_of_frame hnext, ih (frames + 1) hrest]
    rfl

end Wire.FrameStream

/-! ## One frame -/

/-- How the ledger of a frame was handled. -/
structure Handling where
  close : LedgerClose
  out : Serialized
  delivery : Delivery
  events : List (Event (Site BulkBody))

namespace Handling

/-- The rows the ledger came with. -/
def rows (x : Handling) : Rows := ⟨x.close.transactions, x.close.fees⟩

/-- The body the ledger was made into. -/
def body (p : Replay) (x : Handling) : BulkBody :=
  .ofDocuments p.exporter.deployment x.out.documents

/-- The frame has been handled: decoded, made into documents, counted, and written once. -/
structure Of (p : Replay) (frame : Bytes) (x : Handling) : Prop where
  decode : LedgerClose.decode p.network frame = .ok x.close
  serialized : Serialized.ofLedgers x.rows [x.close.ledger] = (x.out, .ok ())
  write : ∃ writing, x.events = Exporter.counted x.out ++ writing ∧
    (p.exporter.writer.write (x.body p) x.out.stats.documents).Path writing (.done x.delivery)

/-- What handling a ledger sends: the body with all of its documents, as often as it takes, and
    nothing where the ledger is too large. It fails where every attempt was refused. -/
structure Sends (p : Replay) (x : Handling) : Prop where
  indexable : ¬ x.rows.Exceeds x.close.ledger →
    x.rows.Serializes x.close.ledger x.out.documents ∧ x.out.unindexable = [] ∧
      bulks x.events ≠ [] ∧ ∀ b ∈ bulks x.events, b.1 = x.body p
  unindexable : x.rows.Exceeds x.close.ledger →
    x.out.unindexable = [x.close.seq] ∧ bulks x.events = []
  exhausted : x.delivery.isWritten = false ↔
    (bulks x.events).length = p.exporter.writer.furtherAttempts + 1 ∧
      ∀ b ∈ bulks x.events, accepted b.2 = false

variable {p : Replay} {frame : Bytes} {x : Handling}

theorem bulks_counted_append {Body : Type} (out : Serialized) (es : List (Event (Site Body))) :
    bulks (Exporter.counted out ++ es) = bulks es := by
  rw [bulks_append]
  rfl

/-- The write of a handled ledger: nothing where there is no document, else attempts. -/
theorem Of.delivered (h : x.Of p frame) :
    (x.out.documents = [] ∧ bulks x.events = [] ∧ x.delivery = .written 0) ∨
      (x.out.documents ≠ [] ∧
        ∃ es, bulks x.events = bulks es ∧
          Writer.Delivered (x.body p) p.exporter.writer.furtherAttempts es x.delivery) := by
  obtain ⟨writing, hevents, hwrite⟩ := h.write
  have hbulks : bulks x.events = bulks writing := by rw [hevents, bulks_counted_append]
  rcases Writer.path_write hwrite with ⟨hempty, rfl, hdelivery⟩ | ⟨hempty, hdelivered⟩
  · exact .inl ⟨(Exporter.isEmpty_ofDocuments _ _).mp hempty, hbulks, hdelivery⟩
  · refine .inr ⟨fun hnil => ?_, writing, hbulks, hdelivered⟩
    rw [body, (Exporter.isEmpty_ofDocuments p.exporter.deployment _).mpr hnil] at hempty
    exact nomatch hempty

theorem Of.indexable (h : x.Of p frame) (hplaced : ¬ x.rows.Exceeds x.close.ledger) :
    x.rows.Serializes x.close.ledger x.out.documents ∧ x.out.unindexable = [] ∧
      bulks x.events ≠ [] ∧ ∀ b ∈ bulks x.events, b.1 = x.body p := by
  have hover : ¬ x.rows.Overflows x.close.ledger := fun ho => hplaced
    ((Serialized.overflows_iff_of_mem h.serialized List.mem_cons_self).mp ho)
  rcases Serialized.ofLedgers_singleton_cases h.serialized with ⟨hser, -, hnone⟩ | ⟨ho, -⟩
  · obtain ⟨doc, rest, hdocs, -⟩ := hser.head
    rcases h.delivered with ⟨hnil, -, -⟩ | ⟨-, es, hbulks, hdelivered⟩
    · rw [hnil] at hdocs
      exact nomatch hdocs
    · rw [hbulks]
      exact ⟨hser, hnone, hdelivered.sends, hdelivered.bulk⟩
  · exact absurd ho hover

theorem Of.unindexable (h : x.Of p frame) (hexceeds : x.rows.Exceeds x.close.ledger) :
    x.out.unindexable = [x.close.seq] ∧ bulks x.events = [] := by
  have hover : x.rows.Overflows x.close.ledger :=
    (Serialized.overflows_iff_of_mem h.serialized List.mem_cons_self).mpr hexceeds
  rcases Serialized.ofLedgers_singleton_cases h.serialized with ⟨hser, -, -⟩ | ⟨-, hout⟩
  · exact absurd hover hser.not_overflows
  · rcases h.delivered with ⟨-, hbulks, -⟩ | ⟨hne, -⟩
    · rw [hout]
      exact ⟨rfl, hbulks⟩
    · rw [hout] at hne
      exact absurd rfl hne

theorem Of.exhausted (h : x.Of p frame) : x.delivery.isWritten = false ↔
    (bulks x.events).length = p.exporter.writer.furtherAttempts + 1 ∧
      ∀ b ∈ bulks x.events, accepted b.2 = false := by
  rcases h.delivered with ⟨-, hbulks, hdelivery⟩ | ⟨-, es, hbulks, hdelivered⟩
  · rw [hbulks, hdelivery]
    simp [Delivery.isWritten]
  · rw [hbulks]
    constructor
    · intro hno
      refine ⟨hdelivered.exhausted hno, fun b hb => ?_⟩
      rw [← Bool.not_eq_true]
      intro hok
      rw [hdelivered.written.mpr ⟨b, hb, hok⟩] at hno
      cases hno
    · rintro ⟨-, hall⟩
      rw [← Bool.not_eq_true, hdelivered.written]
      rintro ⟨b, hb, hok⟩
      rw [hall b hb] at hok
      cases hok

theorem Of.sends (h : x.Of p frame) : x.Sends p := ⟨h.indexable, h.unindexable, h.exhausted⟩

end Handling

/-! ## One ledger after the other -/

/-- The report with a handled ledger added. -/
def ReplayReport.add (r : ReplayReport) (x : Handling) : ReplayReport where
  ledgers := r.ledgers + 1
  stats := r.stats + x.out.stats
  skipped := if x.delivery.isWritten then r.skipped else r.skipped ++ [x.close.seq]
  unindexable := r.unindexable ++ x.out.unindexable

theorem ReplayReport.foldl_add (xs : List Handling) (r : ReplayReport) :
    (xs.foldl add r).ledgers = r.ledgers + xs.length ∧
    (xs.foldl add r).stats.ledgers = r.stats.ledgers + (xs.map (·.out.stats.ledgers)).sum ∧
    (xs.foldl add r).unindexable = r.unindexable ++ xs.flatMap (·.out.unindexable) ∧
    (xs.foldl add r).skipped =
      r.skipped ++ (xs.filter (!·.delivery.isWritten)).map (·.close.seq) := by
  induction xs generalizing r with
  | nil => simp
  | cons x xs ih =>
    obtain ⟨hledgers, hstats, hunindexable, hskipped⟩ := ih (r.add x)
    rw [List.foldl_cons, hledgers, hstats, hunindexable, hskipped]
    refine ⟨?_, ?_, ?_, ?_⟩
    · rw [List.length_cons]
      show r.ledgers + 1 + xs.length = _
      omega
    · rw [List.map_cons, List.sum_cons, ← Nat.add_assoc]
      rfl
    · rw [List.flatMap_cons, ← List.append_assoc]
      rfl
    · cases hw : x.delivery.isWritten <;> simp [add, hw]

namespace Replay

variable {p : Replay} {r : ReplayReport} {es : List (Event (Site BulkBody))}
  {o : Outcome ReplayReport}

/-- A ledger whose documents can be made does not stop the replay, whatever the index answers. -/
theorem path_ledger {e : Exporter} {c : LedgerClose} {out : Serialized}
    (hout : Serialized.ofLedgers ⟨c.transactions, c.fees⟩ [c.ledger] = (out, .ok ()))
    (h : (ledger e r c).Path es (.ofOutcome o)) :
    ∃ d writing, es = Exporter.counted out ++ writing ∧
      (e.writer.write (BulkBody.ofDocuments e.deployment out.documents)
        out.stats.documents).Path writing (.done d) ∧
      o = .ok (r.add ⟨c, out, d, es⟩) := by
  rw [ledger, hout] at h
  rcases path_andThen_end h with ⟨f, -, hstop⟩ | ⟨es₁, es₂, s, rfl, h₁, h₂⟩
  · exact (Exporter.neverStops_account_ok out _ _ hstop).elim
  obtain ⟨rfl, rfl⟩ := Exporter.path_account_ok h₁
  rcases path_andThen_end h₂ with ⟨f, -, hstop⟩ | ⟨writing, es₄, d, rfl, h₃, h₄⟩
  · exact (Writer.neverStops_write _ _ _ _ _ hstop).elim
  obtain ⟨rfl, rfl⟩ := path_done_end h₄
  rw [List.append_nil]
  exact ⟨d, writing, rfl, h₃, rfl⟩

/-- By induction on the frames: each is handled if it decodes, and the first that does not ends the
    replay. -/
theorem path_frames {bodies : List Bytes}
    (hfits : ∀ body ∈ bodies, ∀ c, LedgerClose.decode p.network body = .ok c →
      ∃ out, Serialized.ofLedgers ⟨c.transactions, c.fees⟩ [c.ledger] = (out, .ok ()))
    (h : (p.frames r bodies).Path es (.ofOutcome o)) :
    ∃ xs : List Handling, es = xs.flatMap (·.events) ∧
      List.Forall₂ (fun body x => x.Of p body) (bodies.take xs.length) xs ∧
      ((xs.length = bodies.length ∧ o = .ok (xs.foldl ReplayReport.add r)) ∨
        ∃ body e, bodies[xs.length]? = some body ∧
          LedgerClose.decode p.network body = .error e ∧ o = .error (.error e)) := by
  induction bodies generalizing r es with
  | nil =>
    obtain ⟨rfl, rfl⟩ := path_done_end h
    exact ⟨[], rfl, .nil, .inl ⟨rfl, rfl⟩⟩
  | cons body rest ih =>
    obtain ⟨hbody, hrest⟩ := List.forall_mem_cons.mp hfits
    cases hdecode : LedgerClose.decode p.network body with
    | error e =>
      rw [frames, hdecode] at h
      obtain ⟨rfl, rfl⟩ := path_stop_end h
      exact ⟨[], rfl, .nil, .inr ⟨body, e, rfl, hdecode, rfl⟩⟩
    | ok c =>
      obtain ⟨out, hout⟩ := hbody c hdecode
      rw [frames, hdecode] at h
      -- a ledger that decodes does not stop a replay, whatever its request is answered with
      rcases path_andThen_end (p := ledger p.exporter r c) h with ⟨f, -, hstop⟩ | hdone
      · obtain ⟨d, writing, -, -, ho⟩ := path_ledger (o := .error f) hout hstop
        exact nomatch ho
      obtain ⟨es₁, es₂, r', rfl, h₁, h₂⟩ := hdone
      obtain ⟨d, writing, hes, hwrite, ho⟩ := path_ledger (o := .ok r') hout h₁
      obtain rfl := Except.ok.inj ho
      obtain ⟨xs, rfl, hhandled, hend⟩ := ih hrest h₂
      refine ⟨⟨c, out, d, es₁⟩ :: xs, rfl, .cons ⟨hdecode, hout, writing, hes, hwrite⟩ hhandled, ?_⟩
      rcases hend with ⟨hlen, ho⟩ | ⟨body', e, hnext, herror, ho⟩
      · exact .inl ⟨congrArg (· + 1) hlen, ho⟩
      · exact .inr ⟨body', e, hnext, herror, ho⟩

/-- An error of the stream counts once the frames before it are done. -/
theorem path_run {s : Wire.FrameStream}
    (hfits : ∀ body ∈ s.all.1, ∀ c, LedgerClose.decode p.network body = .ok c →
      ∃ out, Serialized.ofLedgers ⟨c.transactions, c.fees⟩ [c.ledger] = (out, .ok ()))
    (h : (p.run s).Path es (.ofOutcome o)) :
    ∃ xs : List Handling, es = xs.flatMap (·.events) ∧
      List.Forall₂ (fun body x => x.Of p body) (s.all.1.take xs.length) xs ∧
      ((xs.length = s.all.1.length ∧
          o = (s.all.2.mapError .error).map fun _ => xs.foldl ReplayReport.add {}) ∨
        ∃ body e, s.all.1[xs.length]? = some body ∧
          LedgerClose.decode p.network body = .error e ∧ o = .error (.error e)) := by
  have hrun : p.run s = (p.frames {} s.all.1).andThen fun report =>
      (ofResult s.all.2).andThen fun _ => .done report := rfl
  rw [hrun] at h
  rcases path_andThen_end h with ⟨f, rfl, hstop⟩ | ⟨es₁, es₂, report, rfl, h₁, h₂⟩
  · obtain ⟨xs, hes, hhandled, ⟨-, ho⟩ | hend⟩ := path_frames (o := .error f) hfits hstop
    · exact nomatch ho
    · exact ⟨xs, hes, hhandled, .inr hend⟩
  have hlast : es₂ = [] ∧ o = (s.all.2.mapError .error).map fun _ => report := by
    cases hending : s.all.2 with
    | ok u =>
      rw [hending] at h₂
      exact path_done_end h₂
    | error e =>
      rw [hending] at h₂
      exact path_stop_end h₂
  obtain ⟨rfl, rfl⟩ := hlast
  obtain ⟨xs, rfl, hhandled, ⟨hlen, ho⟩ | ⟨body, e, -, -, ho⟩⟩ :=
    path_frames (o := .ok report) hfits h₁
  · obtain rfl := Except.ok.inj ho
    exact ⟨xs, List.append_nil _, hhandled, .inl ⟨hlen, rfl⟩⟩
  · exact nomatch ho

/-! ## Whole streams -/

theorem exists_of_forall₂ {α β : Type} {R : α → β → Prop} {as : List α} {bs : List β}
    (h : List.Forall₂ R as bs) {a : α} (ha : a ∈ as) : ∃ b ∈ bs, R a b := by
  induction h with
  | nil => exact nomatch ha
  | cons hab _ ih =>
    rcases List.mem_cons.mp ha with rfl | ha
    · exact ⟨_, List.mem_cons_self, hab⟩
    · obtain ⟨b, hb, hr⟩ := ih ha
      exact ⟨b, List.mem_cons_of_mem _ hb, hr⟩

/-- Each handled frame is counted once, as one with documents or as one left out. -/
theorem ledgers_foldl_add {α : Type} {frame : α → Bytes} {frames : List α} {xs : List Handling}
    (h : List.Forall₂ (fun f x => x.Of p (frame f)) frames xs) :
    (xs.foldl ReplayReport.add {}).ledgers =
      (xs.foldl ReplayReport.add {}).stats.ledgers +
        (xs.foldl ReplayReport.add {}).unindexable.length := by
  obtain ⟨hledgers, hstats, hunindexable, -⟩ := ReplayReport.foldl_add xs {}
  rw [hledgers, hstats, hunindexable]
  have hone : ∀ x ∈ xs, x.out.stats.ledgers + x.out.unindexable.length = 1 := by
    intro x hx
    obtain ⟨f, -, hof⟩ := exists_of_forall₂ h.flip hx
    have hlen := Serialized.length_ofLedgers hof.serialized
    rw [List.length_singleton] at hlen
    omega
  have hsum : (xs.map (·.out.stats.ledgers)).sum + (xs.flatMap (·.out.unindexable)).length =
      xs.length := by
    rw [List.length_flatMap, ← List.sum_map_add, List.map_congr_left hone]
    simp
  simp only [List.nil_append, Nat.zero_add]
  omega

open Wire Wire.FrameStream

section

variable {max : Nat} {fs : List (Frame max)} {xs : List Handling}
  {answer : Except Error (Option Bytes)} {o : Outcome ReplayReport}

/-- A frame that was handled is one that decodes. -/
theorem length_le_of_error
    (h : List.Forall₂ (fun f x => x.Of p f.body) (fs.take xs.length) xs) {k : Nat}
    {f : Frame max} {e : Error} (hf : fs[k]? = some f)
    (he : LedgerClose.decode p.network f.body = .error e) : xs.length ≤ k := by
  by_contra hlt
  have hmem : f ∈ fs.take xs.length :=
    List.mem_of_getElem? ((List.getElem?_take_of_lt (by omega)).trans hf)
  obtain ⟨x, -, hof⟩ := exists_of_forall₂ h hmem
  rw [hof.decode] at he
  exact nomatch he

/-- How a replay of the frames ends when it has handled `xs`: all of them, and then as the stream
    does, or those before one that does not decode. -/
inductive Ended (p : Replay) (fs : List (Frame max)) (answer : Except Error (Option Bytes))
    (xs : List Handling) : Outcome ReplayReport → Prop
  | whole :
      xs.length = fs.length →
      Ended p fs answer xs
        (((answer.map fun _ => ()).mapError .error).map fun _ => xs.foldl ReplayReport.add {})
  | undecodable {f : Frame max} {e : Error} :
      fs[xs.length]? = some f → LedgerClose.decode p.network f.body = .error e →
      Ended p fs answer xs (.error (.error e))

/-- A replay that gives a report has come to a regular end, with every frame in the report. -/
theorem Ended.report {report : ReplayReport} (h : Ended p fs answer xs (.ok report))
    (hanswer : answer = .ok none ∨ ∃ e, answer = .error e) :
    answer = .ok none ∧ xs.length = fs.length ∧ report = xs.foldl ReplayReport.add {} := by
  obtain ⟨o, ho⟩ : ∃ o : Outcome ReplayReport, .ok report = o := ⟨_, rfl⟩
  rw [ho] at h
  cases h with
  | whole hlen =>
    rcases hanswer with rfl | ⟨e, rfl⟩
    · exact ⟨rfl, hlen, Except.ok.inj ho⟩
    · exact nomatch ho
  | undecodable => exact nomatch ho

/-- The frame that stops a replay is the first one that does not decode. -/
theorem Ended.at_error (h : Ended p fs answer xs o)
    (hhandled : List.Forall₂ (fun f x => x.Of p f.body) (fs.take xs.length) xs) {k : Nat}
    {f : Frame max} {e : Error} (hf : fs[k]? = some f)
    (he : LedgerClose.decode p.network f.body = .error e)
    (hbefore : ∀ g ∈ fs.take k, ∃ c, LedgerClose.decode p.network g.body = .ok c) :
    xs.length = k ∧ o = .error (.error e) := by
  have hle := length_le_of_error hhandled hf he
  cases h with
  | whole hlen =>
    have hlt := (List.getElem?_eq_some_iff.mp hf).1
    omega
  | @undecodable g e' hg herror =>
    rcases Nat.lt_or_eq_of_le hle with hlt | heq
    · have hmem : g ∈ fs.take k := List.mem_of_getElem? ((List.getElem?_take_of_lt hlt).trans hg)
      obtain ⟨c, hc⟩ := hbefore g hmem
      rw [hc] at herror
      exact nomatch herror
    · rw [heq, hf] at hg
      obtain rfl := Option.some.inj hg
      rw [he] at herror
      obtain rfl := Except.error.inj herror
      exact ⟨heq, rfl⟩

/-- Where all frames decode, all are handled. -/
theorem Ended.of_decodes (h : Ended p fs answer xs o)
    (hdecodes : ∀ g ∈ fs, ∃ c, LedgerClose.decode p.network g.body = .ok c) :
    xs.length = fs.length ∧
      o = ((answer.map fun _ => ()).mapError .error).map fun _ => xs.foldl ReplayReport.add {} := by
  cases h with
  | whole hlen => exact ⟨hlen, rfl⟩
  | @undecodable g e hg herror =>
    obtain ⟨c, hc⟩ := hdecodes g (List.mem_of_getElem? hg)
    rw [hc] at herror
    exact nomatch herror

/-- The frames are handled in order, up to the first that does not decode. -/
theorem path_stream {input : List Chunk} {tail unread : Bytes}
    (hinput : Carries input (fs.flatMap Frame.bytes ++ tail))
    (hending : Ending max tail answer unread)
    (hdifferences : ∀ f ∈ fs, ∀ c, LedgerClose.decode p.network f.body = .ok c →
      ¬ Rows.Breaks ⟨c.transactions, c.fees⟩ c.ledger)
    (h : (p.run ⟨input, max, 0⟩).Path es (.ofOutcome o)) :
    ∃ xs : List Handling, es = xs.flatMap (·.events) ∧
      List.Forall₂ (fun f x => x.Of p f.body) (fs.take xs.length) xs ∧ Ended p fs answer xs o := by
  have hall := all_frames 0 hinput hending
  have hfits : ∀ body ∈ fs.map (·.body), ∀ c, LedgerClose.decode p.network body = .ok c →
      ∃ out, Serialized.ofLedgers ⟨c.transactions, c.fees⟩ [c.ledger] = (out, .ok ()) := by
    intro body hbody c hdecode
    obtain ⟨f, hf, rfl⟩ := List.mem_map.mp hbody
    refine Serialized.exists_ofLedgers_iff.mpr fun row hrow => ?_
    rw [List.mem_singleton.mp hrow]
    exact ⟨LedgerClose.counts_of_decode hdecode f.length_lt, hdifferences f hf c hdecode⟩
  obtain ⟨xs, htrace, hhandled, hend⟩ := path_run (by rw [hall]; exact hfits) h
  rw [hall, ← List.map_take, List.forall₂_map_left_iff] at hhandled
  rw [hall, List.length_map] at hend
  refine ⟨xs, htrace, hhandled, ?_⟩
  rcases hend with ⟨hlen, rfl⟩ | ⟨body, e, hnext, herror, rfl⟩
  · exact .whole hlen
  · rw [List.getElem?_map] at hnext
    obtain ⟨f, hf, rfl⟩ := Option.map_eq_some_iff.mp hnext
    exact .undecodable hf herror

end

/-- A replay of a stream whose bytes are the frames `fs` and then an ending (as all streams are, by
    `exists_ending`) handles its frames in order, whatever answers its requests, each by one write.
    It reports every frame once, with the ledgers it could not write, in their order; a frame that
    does not decode ends it when those before it have been handled, and an error of the stream when
    all have. -/
theorem run_handles {p : Replay} {input : List Chunk} {max : Nat} {fs : List (Frame max)}
    {tail unread : Bytes} {answer : Except Error (Option Bytes)}
    (hinput : Carries input (fs.flatMap Frame.bytes ++ tail))
    (hending : Ending max tail answer unread)
    (hdifferences : ∀ f ∈ fs, ∀ c, LedgerClose.decode p.network f.body = .ok c →
      ¬ Rows.Breaks ⟨c.transactions, c.fees⟩ c.ledger)
    {σ : Type} (h : Program.Handler (Site BulkBody) σ) (s : σ) :
    ∃ xs : List Handling,
      (p.run ⟨input, max, 0⟩).trace h s = xs.flatMap (·.events) ∧
      List.Forall₂ (fun f x => x.Of p f.body) (fs.take xs.length) xs ∧
      (∀ x ∈ xs, x.Sends p) ∧
      (∀ report, ((p.run ⟨input, max, 0⟩).run h s).1 = .ok report →
        answer = .ok none ∧ xs.length = fs.length ∧ report.ledgers = fs.length ∧
        report.ledgers = report.stats.ledgers + report.unindexable.length ∧
        report.skipped = (xs.filter (!·.delivery.isWritten)).map (·.close.seq)) ∧
      (∀ k f e, fs[k]? = some f → LedgerClose.decode p.network f.body = .error e →
        (∀ g ∈ fs.take k, ∃ c, LedgerClose.decode p.network g.body = .ok c) →
        xs.length = k ∧ ((p.run ⟨input, max, 0⟩).run h s).1 = .error (.error e)) ∧
      ((∀ g ∈ fs, ∃ c, LedgerClose.decode p.network g.body = .ok c) →
        (∀ e, answer = .error e →
          xs.length = fs.length ∧ ((p.run ⟨input, max, 0⟩).run h s).1 = .error (.error e)) ∧
        (answer = .ok none → ∃ report, ((p.run ⟨input, max, 0⟩).run h s).1 = .ok report)) := by
  have hpath := path_trace h (p.run ⟨input, max, 0⟩) s
  -- all that the surroundings do is in the trace and the outcome
  obtain ⟨o, ho⟩ : ∃ o, ((p.run ⟨input, max, 0⟩).run h s).1 = o := ⟨_, rfl⟩
  rw [ho] at hpath ⊢
  obtain ⟨xs, htrace, hhandled, hend⟩ := path_stream hinput hending hdifferences hpath
  refine ⟨xs, htrace, hhandled, fun x hx => ?_, fun report hreport => ?_,
    fun k f e hf he hbefore => hend.at_error hhandled hf he hbefore,
    fun hdecodes => ⟨fun e he => ?_, fun hnone => ?_⟩⟩
  · obtain ⟨f, -, hof⟩ := exists_of_forall₂ hhandled.flip hx
    exact hof.sends
  · subst hreport
    obtain ⟨hanswer, hlen, rfl⟩ := hend.report hending.answer_eq
    obtain ⟨hcount, -, -, hskipped⟩ := ReplayReport.foldl_add xs {}
    refine ⟨hanswer, hlen, ?_, ledgers_foldl_add hhandled, hskipped⟩
    rw [hcount, hlen]
    exact Nat.zero_add _
  · subst he
    exact hend.of_decodes hdecodes
  · subst hnone
    exact ⟨_, (hend.of_decodes hdecodes).2⟩

/-- A stream of one frame, which announces a ledger of two transactions, in two reads. -/
theorem run_handles_idlePair : ∃ report,
    ((run ⟨Announcement.feeFirst, ⟨"live", ⟨0, 0⟩⟩⟩
      ⟨[.data (Wire.FrameStream.lengthWord true Announcement.idlePair.frame.length),
        .data Announcement.idlePair.frame], 4096, 0⟩).run Memory.World.answer
        { history := [], index := { deployment := "live" } }).1 = .ok report ∧
      report.ledgers = 1 ∧ report.ledgers = report.stats.ledgers + report.unindexable.length := by
  have hclose : Announcement.idlePair.Closes Announcement.feeFirst
      [(Announcement.early 8, Announcement.idleWith 8),
        (Announcement.early 7, Announcement.idleWith 7)] LedgerClose.idlePairRecord :=
    ⟨by decide +kernel, by decide +kernel, by decide +kernel, by decide +kernel⟩
  have hdecode := LedgerClose.decode_frame.mpr ⟨_, hclose⟩
  have hbytes : Announcement.idlePair.frame.length ≤ 4096 ∧ Announcement.idlePair.frame ≠ [] := by
    decide +kernel
  have htop : Announcement.idlePair.frame.length < Wire.FrameStream.topBit :=
    Nat.lt_of_le_of_lt hbytes.1 (by decide)
  obtain ⟨f, hf, hreserved⟩ : ∃ f : Wire.FrameStream.Frame 4096,
      f.body = Announcement.idlePair.frame ∧ f.reserved = true :=
    ⟨⟨true, Announcement.idlePair.frame, hbytes.2, hbytes.1, htop⟩, rfl, rfl⟩
  have hinput := f.carries
  rw [hf, hreserved] at hinput
  have hdifferences : ∀ g ∈ [f], ∀ c, LedgerClose.decode Announcement.feeFirst g.body = .ok c →
      ¬ Rows.Breaks ⟨c.transactions, c.fees⟩ c.ledger := by
    intro g hg c hc
    obtain rfl := List.mem_singleton.mp hg
    rw [hf, hdecode] at hc
    obtain rfl := Except.ok.inj hc
    have hrange : Rows.InRange ⟨LedgerClose.idlePairRecord.transactions,
        LedgerClose.idlePairRecord.fees⟩ LedgerClose.idlePairRecord.ledger := by decide +kernel
    exact hrange.not_breaks
  obtain ⟨xs, -, -, -, hreport, -, hwhole⟩ := run_handles
    (p := ⟨Announcement.feeFirst, ⟨"live", ⟨0, 0⟩⟩⟩) hinput .finished hdifferences
    Memory.World.answer { history := [], index := { deployment := "live" } }
  have hdecodes : ∀ g ∈ [f], ∃ c, LedgerClose.decode Announcement.feeFirst g.body = .ok c := by
    intro g hg
    rw [List.mem_singleton.mp hg, hf]
    exact ⟨_, hdecode⟩
  obtain ⟨report, hok⟩ := (hwhole hdecodes).2 rfl
  obtain ⟨-, -, hcount, hledgers, -⟩ := hreport report hok
  exact ⟨report, hok, hcount, hledgers⟩

end Replay

end LedgerSearch
