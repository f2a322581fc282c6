/-
Module: BackupRestore.Proofs.Opens
Purpose: How often a medium has been opened is seen by nothing that is done with it.
Main exports: Medium.countMore, locate_countMore, classify_countMore, Cursor.readChunk_countMore,
  transferRecords_countMore, FullStream.nextChunk_countMore, Session.nextPackage_countMore,
  Transport.perform_countMore
-/
import BackupRestore.Proofs.Handles

namespace BackupRestore

/-!
A medium counts the opens that have succeeded, and nobody asks it for the number.  So
everything that is done with a medium goes the same way on one that has been opened more
often, and leaves a medium that differs in that number and in nothing else.

There is one equation for each operation, from single reads up to the calls of a transport.
The operations are taken in the order in which they are built on each other.
-/

/-- The medium on which `k` more opens have succeeded. -/
def Medium.countMore (m : Medium) (k : Nat) : Medium := { m with opens := m.opens + k }

variable (m : Medium) (k : Nat)

/-! ### Reads and opens -/

namespace Medium

@[simp] theorem content_countMore : (m.countMore k).content = m.content := rfl

@[simp] theorem delivery_countMore : (m.countMore k).delivery = m.delivery := rfl

@[simp] theorem live_countMore : (m.countMore k).live = m.live := rfl

theorem release_countMore : (m.countMore k).release = m.release.countMore k := rfl

theorem seek_countMore (h : Handle) (position : Nat) :
    (m.countMore k).seek h position = m.seek h position := rfl

theorem takeOpenFate_countMore :
    (m.countMore k).takeOpenFate = (m.takeOpenFate.1, m.takeOpenFate.2.countMore k) := by
  have fates : (m.countMore k).openFates = m.openFates := rfl
  have refused : (m.countMore k).refusedNext = m.refusedNext := rfl
  unfold takeOpenFate
  rw [fates, refused]
  split <;> rfl

theorem openHandle_countMore :
    (m.countMore k).openHandle = (m.openHandle.1, m.openHandle.2.countMore k) := by
  unfold openHandle
  rw [takeOpenFate_countMore]
  rcases m.takeOpenFate with ⟨planned, m₁⟩
  have refusal : (m₁.countMore k).refusal = m₁.refusal := rfl
  simp only [refusal, content_countMore]
  split
  · rfl
  · rfl
  · simp only [countMore, Nat.add_right_comm]

theorem read_countMore (h : Handle) (wanted : Nat) :
    (m.countMore k).read h wanted =
      ((m.read h wanted).1, (m.read h wanted).2.1, (m.read h wanted).2.2.countMore k) := by
  unfold read
  rw [delivery_countMore]
  split <;> rfl

theorem fill_countMore (h : Handle) (wanted : Nat) :
    (m.countMore k).fill h wanted =
      ((m.fill h wanted).1, (m.fill h wanted).2.1, (m.fill h wanted).2.2.1,
        (m.fill h wanted).2.2.2.countMore k) := rfl

theorem readExactly_countMore (h : Handle) (wanted : Nat) :
    (m.countMore k).readExactly h wanted =
      ((m.readExactly h wanted).1, (m.readExactly h wanted).2.1,
        (m.readExactly h wanted).2.2.countMore k) := by
  unfold readExactly
  rw [fill_countMore]
  rcases m.fill h wanted with ⟨bytes, _ | cause, h₁, m₁⟩
  · simp only
    split <;> rfl
  · rfl

theorem load_countMore (h : Handle) :
    (m.countMore k).load h = ((m.load h).1, (m.load h).2.countMore k) := by
  unfold load
  rw [delivery_countMore]
  simp only
  split <;> rfl

end Medium

/-! ### Lookups -/

namespace Archive

theorem openOn_countMore :
    openOn (m.countMore k) = ((openOn m).1, (openOn m).2.countMore k) := by
  unfold openOn
  rw [Medium.openHandle_countMore]
  rcases m.openHandle with ⟨cause | handle, m₁⟩
  · rfl
  · simp only [Medium.load_countMore]
    rcases m₁.load handle with ⟨cause | content, m₂⟩
    · rfl
    · simp only
      split <;> rfl

theorem visit_countMore (a : Archive) (e : Zip.Entry) :
    a.visit (m.countMore k) e = ((a.visit m e).1, (a.visit m e).2.countMore k) := by
  unfold visit
  rw [Medium.seek_countMore]
  rcases m.seek a.handle e.headerStart with cause | handle
  · rfl
  · simp only [Medium.fill_countMore]
    rcases m.fill handle Zip.localHeaderLength with ⟨header, _ | cause, h₁, m₁⟩
    · simp only
      split <;> rfl
    · rfl

theorem scan_countMore (a : Archive) (p : Pattern) (count index : Nat) (m : Medium) (k : Nat) :
    a.scan p count index (m.countMore k) =
      ((a.scan p count index m).1, (a.scan p count index m).2.countMore k) := by
  induction count generalizing index m with
  | zero => rfl
  | succ count ih =>
      unfold scan
      cases a.directory.entries[index]? with
      | none => rfl
      | some e =>
          simp only [visit_countMore]
          rcases a.visit m e with ⟨cause | handle, m₁⟩
          · rfl
          · simp only [ih]
            split <;> rfl

theorem readData_countMore [Zip.Codecs] (e : Zip.Entry) (handle : Handle) :
    readData (m.countMore k) e handle =
      ((readData m e handle).1, (readData m e handle).2.countMore k) := by
  unfold readData
  rw [Medium.fill_countMore]
  rcases m.fill handle e.compressedSize with ⟨data, _ | cause, h₁, m₁⟩
  · simp only
    split
    · rfl
    · split <;> rfl
  · rfl

theorem readEntry_countMore [Zip.Codecs] (a : Archive) (index : Nat) :
    a.readEntry (m.countMore k) index =
      ((a.readEntry m index).1, (a.readEntry m index).2.countMore k) := by
  unfold readEntry
  cases a.directory.entries[index]? with
  | none => rfl
  | some e =>
      simp only [visit_countMore]
      split
      · rfl
      · rcases a.visit m e with ⟨cause | handle, m₁⟩
        · rfl
        · simp only [readData_countMore]
          repeat' split
          all_goals rfl

end Archive

theorem locate_countMore (p : Pattern) :
    locate (m.countMore k) p = ((locate m p).1, (locate m p).2.countMore k) := by
  unfold locate
  rw [Archive.openOn_countMore]
  rcases Archive.openOn m with ⟨e | a, m₁⟩
  · rfl
  · simp only [Archive.find, Archive.scan_countMore]
    rcases a.scan p (a.size - 0) 0 m₁ with ⟨e | _ | found, m₂⟩ <;> rfl

theorem contains_countMore (p : Pattern) :
    contains (m.countMore k) p = ((contains m p).1, (contains m p).2.countMore k) := by
  unfold contains
  rw [locate_countMore]
  rcases locate m p with ⟨e | _ | found, m₁⟩ <;> rfl

theorem classify_countMore (layout : Layout) (package : String) :
    classify layout package (m.countMore k) =
      ((classify layout package m).1, (classify layout package m).2.countMore k) := by
  unfold classify
  rw [contains_countMore]
  rcases contains m (.under (layout.recordsOf package)) with ⟨e | _ | _, m₁⟩
  · rfl
  · simp only [contains_countMore]
    rcases contains m₁ (.exactly (layout.streamPath package)) with ⟨e | _ | _, m₂⟩ <;> rfl
  · rfl

/-! ### Data piece by piece -/

namespace Cursor

theorem openAt_countMore (h : Handle) (path : String) (span : PayloadSpan) :
    openAt (m.countMore k) h path span =
      ((openAt m h path span).1, (openAt m h path span).2.countMore k) := by
  unfold openAt
  simp only [Medium.seek_countMore]
  split
  · rfl
  · split
    · rfl
    · rcases m.seek h span.headerStart with cause | placed
      · rfl
      · simp only [Medium.readExactly_countMore]
        rcases m.readExactly placed Zip.localHeaderLength with ⟨cause | header, h₁, m₁⟩
        · rfl
        · simp only [Medium.seek_countMore]
          split
          · rfl
          · rcases m₁.seek placed (span.headerStart + Zip.localHeaderLength +
              Zip.localTail header) with cause | handle
            · rfl
            · simp only
              split <;> rfl

namespace Inflow

theorem fetch_countMore (f : Inflow) :
    f.fetch (m.countMore k) =
      ((f.fetch m).1, (f.fetch m).2.1, (f.fetch m).2.2.countMore k) := by
  unfold fetch
  rw [Medium.read_countMore]
  split
  · rfl
  · rcases m.read f.handle (min f.limit fetchSize) with ⟨cause | bytes, h₁, m₁⟩ <;> rfl

theorem deliverLast_countMore (f : Inflow) (before n : Nat) :
    f.deliverLast (m.countMore k) before n =
      ((f.deliverLast m before n).1, (f.deliverLast m before n).2.1,
        (f.deliverLast m before n).2.2.countMore k) := by
  unfold deliverLast
  rcases f.deliver n with ⟨bytes, f₁⟩
  simp only [fetch_countMore]
  split
  · rcases f₁.fetch m with ⟨cause | count, f₂, m₁⟩ <;> rfl
  · rfl

/-- Decoding and fetching in turn.  Every fetch leaves less to fetch. -/
theorem fill_countMore (m : Medium) (k : Nat) (f : Inflow) (before n : Nat) :
    f.fill (m.countMore k) before n =
      ((f.fill m before n).1, (f.fill m before n).2.1, (f.fill m before n).2.2.countMore k) := by
  induction left : f.limit using Nat.strongRecOn generalizing m f before with
  | _ limit ih =>
      rw [fill_eq, fill_eq]
      rcases f.inflater.run n with ⟨inflater, stop⟩
      cases stop with
      | enough => rfl
      | finished => exact deliverLast_countMore m k _ before n
      | corrupt => rfl
      | starved =>
          simp only [fetch_countMore]
          rcases fetch : Inflow.fetch m { f with inflater } with ⟨cause | _ | count, next, m₁⟩
          · rfl
          · rfl
          · have shorter := Inflow.limit_fetch fetch
            simp only at shorter ⊢
            exact ih next.limit (by omega) m₁ next inflater.waiting rfl

theorem readChunk_countMore (f : Inflow) (n : Nat) :
    f.readChunk (m.countMore k) n =
      ((f.readChunk m n).1, (f.readChunk m n).2.1, (f.readChunk m n).2.2.countMore k) := by
  unfold readChunk
  rw [fetch_countMore]
  split
  · rfl
  · split
    · rcases f.fetch m with ⟨cause | count, f₁, m₁⟩
      · rfl
      · exact fill_countMore m₁ k f₁ 0 n
    · exact fill_countMore m k f 0 n

end Inflow

theorem readChunk_countMore (c : Cursor) (n : Nat) :
    c.readChunk (m.countMore k) n =
      ((c.readChunk m n).1, (c.readChunk m n).2.1, (c.readChunk m n).2.2.countMore k) := by
  cases c with
  | stored handle limit =>
      simp only [readChunk, Medium.fill_countMore]
      rcases m.fill handle (min n limit) with ⟨bytes, _ | cause, h₁, m₁⟩ <;> rfl
  | deflated handle limit inflater =>
      simp only [readChunk, Inflow.readChunk_countMore]

end Cursor

theorem Archive.intoCursor_countMore (a : Archive) (found : Located) :
    a.intoCursor (m.countMore k) found =
      ((a.intoCursor m found).1, (a.intoCursor m found).2.countMore k) := by
  unfold intoCursor
  cases a.directory.entries[found.index]? with
  | none => rfl
  | some e =>
      simp only [visit_countMore]
      rcases a.visit m e with ⟨cause | handle, m₁⟩
      · rfl
      · exact Cursor.openAt_countMore m₁ k a.handle found.name e.span

/-! ### Transfers of records -/

section Transfer

variable [Zip.Codecs] {σ : Type} [RecordSink σ]

theorem transferRecord_countMore (a : Archive) (sink : σ) (found : Located) :
    transferRecord a (m.countMore k) sink found =
      ((transferRecord a m sink found).1, (transferRecord a m sink found).2.1.countMore k,
        (transferRecord a m sink found).2.2) := by
  unfold transferRecord
  rw [Archive.readEntry_countMore]
  split
  · rfl
  · rename_i key _
    rcases a.readEntry m found.index with ⟨e | value, m₁⟩
    · rfl
    · simp only
      split
      · rfl
      · split <;> rfl

theorem transferFrom_countMore (a : Archive) (p : Pattern) (count index : Nat) (m : Medium)
    (k : Nat) (sink : σ) (written : Nat) :
    transferFrom a p count index (m.countMore k) sink written =
      ((transferFrom a p count index m sink written).1,
        (transferFrom a p count index m sink written).2.1.countMore k,
        (transferFrom a p count index m sink written).2.2) := by
  induction count generalizing index m sink written with
  | zero => rfl
  | succ count ih =>
      unfold transferFrom
      cases a.directory.entries[index]? with
      | none => rfl
      | some e =>
          simp only [Archive.visit_countMore]
          rcases a.visit m e with ⟨cause | handle, m₁⟩
          · rfl
          · simp only [transferRecord_countMore]
            split
            · rcases transferRecord a m₁ sink { index, name := e.name } with ⟨e | _, m₂, sink₂⟩
              · rfl
              · exact ih (index + 1) m₂ sink₂ (written + 1)
            · exact ih (index + 1) m₁ sink written

theorem transferRecords_countMore (layout : Layout) (package : String) (sink : σ) :
    transferRecords layout package (m.countMore k) sink =
      ((transferRecords layout package m sink).1,
        (transferRecords layout package m sink).2.1.countMore k,
        (transferRecords layout package m sink).2.2) := by
  unfold transferRecords
  rw [Archive.openOn_countMore]
  rcases Archive.openOn m with ⟨e | a, m₁⟩
  · rfl
  · simp only [transferFrom_countMore, Medium.release_countMore]

end Transfer

/-! ### Streams -/

namespace FullStream

theorem openCursor_countMore (s : FullStream) (layout : Layout) :
    s.openCursor layout (m.countMore k) =
      ((s.openCursor layout m).1, (s.openCursor layout m).2.countMore k) := by
  unfold openCursor
  rw [locate_countMore]
  rcases locate m (.exactly (layout.streamPath s.package)) with ⟨e | _ | ⟨a, found⟩, m₁⟩
  · rfl
  · rfl
  · exact Archive.intoCursor_countMore m₁ k a found

theorem step_countMore (s : FullStream) (cursor : Cursor) (o : Output) :
    s.step (m.countMore k) cursor o =
      ((s.step m cursor o).1, (s.step m cursor o).2.1, (s.step m cursor o).2.2.1.countMore k,
        (s.step m cursor o).2.2.2) := by
  unfold step
  rw [Cursor.readChunk_countMore]
  rcases cursor.readChunk m s.chunkSize with ⟨cause | bytes, cursor₁, m₁⟩
  · rfl
  · simp only
    split
    · split <;> rfl
    · split <;> rfl

theorem nextChunk_countMore (s : FullStream) (layout : Layout) (o : Output) :
    s.nextChunk layout (m.countMore k) o =
      ((s.nextChunk layout m o).1, (s.nextChunk layout m o).2.1,
        (s.nextChunk layout m o).2.2.1.countMore k, (s.nextChunk layout m o).2.2.2) := by
  unfold nextChunk
  cases s.phase with
  | streaming cursor => exact step_countMore m k s cursor o
  | notStarted =>
      simp only [openCursor_countMore]
      rcases s.openCursor layout m with ⟨e | cursor, m₁⟩
      · rfl
      · exact step_countMore m₁ k s cursor o
  | closed reason => cases reason <;> rfl

theorem abort_countMore (s : FullStream) :
    s.abort (m.countMore k) = ((s.abort m).1, (s.abort m).2.countMore k) := by
  unfold abort
  cases s.phase <;> rfl

end FullStream

/-! ### Sessions -/

namespace Session

theorem dropStream_countMore (s : Session) :
    s.dropStream (m.countMore k) = ((s.dropStream m).1, (s.dropStream m).2.countMore k) := by
  unfold dropStream
  cases s.stream with
  | none => rfl
  | some stream => simp only [FullStream.abort_countMore]

theorem seekPackage_countMore (s : Session) (m : Medium) (k index : Nat)
    (remaining : List String) :
    s.seekPackage (m.countMore k) index remaining =
      ((s.seekPackage m index remaining).1, (s.seekPackage m index remaining).2.1,
        (s.seekPackage m index remaining).2.2.countMore k) := by
  induction remaining generalizing s m index with
  | nil => rfl
  | cons package rest ih =>
      unfold seekPackage
      rw [classify_countMore]
      rcases classify s.layout package m with ⟨e | mode, m₁⟩
      · exact ih { s with place := .at index } m₁ (index + 1)
      · cases mode with
        | none => exact ih { s with place := .at index } m₁ (index + 1)
        | _ => rfl

theorem nextPackage_countMore (s : Session) :
    s.nextPackage (m.countMore k) =
      ((s.nextPackage m).1, (s.nextPackage m).2.1, (s.nextPackage m).2.2.countMore k) := by
  unfold nextPackage
  rw [dropStream_countMore]
  rcases s.dropStream m with ⟨s₁, m₁⟩
  simp only [seekPackage_countMore]
  cases s₁.nextIndex? <;> rfl

theorem transferKeyValue_countMore [Zip.Codecs] {σ : Type} [RecordSink σ] (s : Session)
    (sink : σ) :
    s.transferKeyValue (m.countMore k) sink =
      ((s.transferKeyValue m sink).1, (s.transferKeyValue m sink).2.1.countMore k,
        (s.transferKeyValue m sink).2.2) := by
  unfold transferKeyValue
  cases s.currentPackage? with
  | none => rfl
  | some package =>
      simp only [transferRecords_countMore]
      split
      · rfl
      · rcases transferRecords s.layout package m sink with ⟨e | records, m₁, sink₁⟩ <;> rfl

theorem streamChunk_countMore (s : Session) (o : Output) :
    s.streamChunk (m.countMore k) o =
      ((s.streamChunk m o).1, (s.streamChunk m o).2.1, (s.streamChunk m o).2.2.1.countMore k,
        (s.streamChunk m o).2.2.2) := by
  unfold streamChunk
  cases s.stream with
  | none => split <;> rfl
  | some stream =>
      simp only [FullStream.nextChunk_countMore]
      split <;> rfl

theorem abort_countMore (s : Session) :
    s.abort (m.countMore k) = ((s.abort m).1, (s.abort m).2.countMore k) := by
  unfold abort
  cases s.stream with
  | none => rfl
  | some stream => simp only [FullStream.abort_countMore]

theorem finish_countMore (s : Session) :
    s.finish (m.countMore k) = (s.finish m).countMore k := by
  simp only [finish, abort_countMore]

end Session

/-! ### Transports -/

namespace Transport

theorem start_countMore (t : Transport) (token : Nat) (packages : List String) :
    t.start (m.countMore k) token packages =
      ((t.start m token packages).1, (t.start m token packages).2.1,
        (t.start m token packages).2.2.countMore k) := by
  unfold start
  cases t.session with
  | none => rfl
  | some session => simp only [Session.finish_countMore]

theorem nextPackage_countMore (t : Transport) :
    t.nextPackage (m.countMore k) =
      ((t.nextPackage m).1, (t.nextPackage m).2.1, (t.nextPackage m).2.2.countMore k) := by
  unfold nextPackage
  cases t.session with
  | none => rfl
  | some session => simp only [Session.nextPackage_countMore]

theorem transferKeyValue_countMore [Zip.Codecs] {σ : Type} [RecordSink σ] (t : Transport)
    (sink : σ) :
    t.transferKeyValue (m.countMore k) sink =
      ((t.transferKeyValue m sink).1, (t.transferKeyValue m sink).2.1.countMore k,
        (t.transferKeyValue m sink).2.2) := by
  unfold transferKeyValue
  cases t.session with
  | none => rfl
  | some session =>
      simp only [Session.transferKeyValue_countMore]
      rcases session.transferKeyValue m sink with ⟨misuse | e | records, m₁, sink₁⟩ <;> rfl

theorem streamChunk_countMore (t : Transport) (o : Output) :
    t.streamChunk (m.countMore k) o =
      ((t.streamChunk m o).1, (t.streamChunk m o).2.1, (t.streamChunk m o).2.2.1.countMore k,
        (t.streamChunk m o).2.2.2) := by
  unfold streamChunk
  cases t.session with
  | none => rfl
  | some session =>
      simp only [Session.streamChunk_countMore]
      rcases session.streamChunk m o with ⟨misuse | e | chunk, session₁, m₁, o₁⟩ <;> rfl

theorem abort_countMore (t : Transport) :
    t.abort (m.countMore k) =
      ((t.abort m).1, (t.abort m).2.1, (t.abort m).2.2.countMore k) := by
  unfold abort
  cases t.session with
  | none => rfl
  | some session => simp only [Session.abort_countMore]

theorem finish_countMore (t : Transport) :
    t.finish (m.countMore k) =
      ((t.finish m).1, (t.finish m).2.1, (t.finish m).2.2.countMore k) := by
  unfold finish
  cases t.session with
  | none => rfl
  | some session => simp only [Session.finish_countMore]

/-- Whatever happens, it leads to the same answer and the same transport. -/
theorem perform_countMore [Zip.Codecs] (t : Transport) (event : Event) :
    t.perform (m.countMore k) event =
      { t.perform m event with medium := (t.perform m event).medium.countMore k } := by
  cases event with
  | start token packages => simp only [perform, start_countMore]
  | nextPackage => simp only [perform, nextPackage_countMore]
  | transferKeyValue sink => simp only [perform, transferKeyValue_countMore]
  | streamChunk o => simp only [perform, streamChunk_countMore]
  | abort => simp only [perform, abort_countMore]
  | finish => simp only [perform, finish_countMore]
  | plan trouble => rfl

end Transport
end BackupRestore
