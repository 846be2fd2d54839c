/-
  Denia.Observability.LogTailer — following a log file (`split_complete`,
  `LogTailer::backlog` and `LogTailer::poll` in `src/observability/logs.rs`).

  The file is a list of bytes that other processes append to.  `backlog` reads the whole file;
  `poll` reads the file's LENGTH first and its bytes from the tailer's offset after that, and
  the file may grow in between.  What was read is decoded with replacement, put behind the
  unfinished line that was kept, and cut into lines.

  Main results: `splitComplete_eq`, the cuts of `Lib.cutLines`; `followed_step`, delivered are
  the lines before the offset; `tailer_delivers_once`.
-/
import Denia.Lib.Lines
import Denia.Lib.Run
import Denia.Lib.Utf8

namespace Denia.Observability

open Lib (cutLines encodeUtf8 decodeLossy ValidUtf8)

/-! ## §1. `split_complete`. -/

/-- A piece of text. -/
abbrev Text := List Char

/-- `str::rfind` of one character. -/
def rfind (c : Char) : Text → Option Nat
  | [] => none
  | x :: xs =>
    match rfind c xs with
    | some idx => some (idx + 1)
    | none => if x = c then some 0 else none

/-- `split_complete`. -/
def splitComplete (buf : Text) : List Text × Text :=
  match rfind '\n' buf with
  | some idx => ((buf.take idx).splitOn '\n', buf.drop (idx + 1))
  | none => ([], buf)

theorem rfind_none {c : Char} {buf : Text} (h : rfind c buf = none) : c ∉ buf := by
  induction buf with
  | nil => exact List.not_mem_nil
  | cons x xs ih =>
    rw [rfind] at h
    cases hrest : rfind c xs with
    | some => rw [hrest] at h; cases h
    | none =>
      rw [hrest] at h
      simp only [ite_eq_right_iff, reduceCtorEq, imp_false] at h
      intro hmem
      rcases List.mem_cons.mp hmem with hx | hx
      · exact h hx.symm
      · exact ih hrest hx

theorem rfind_some {c : Char} {buf : Text} {idx : Nat} (h : rfind c buf = some idx) :
    buf = buf.take idx ++ c :: buf.drop (idx + 1) ∧ c ∉ buf.drop (idx + 1) := by
  induction buf generalizing idx with
  | nil => cases h
  | cons x xs ih =>
    rw [rfind] at h
    cases hrest : rfind c xs with
    | some =>
      rw [hrest] at h
      cases h
      obtain ⟨hcut, hlast⟩ := ih hrest
      exact ⟨congrArg (x :: ·) hcut, hlast⟩
    | none =>
      rw [hrest] at h
      simp only [Option.ite_none_right_eq_some, Option.some.injEq] at h
      obtain ⟨hx, hidx⟩ := h
      subst hx hidx
      exact ⟨rfl, rfind_none hrest⟩

/-- **Cutting at the last newline is cutting at every newline**, with the rest kept. -/
theorem splitComplete_eq (buf : Text) : splitComplete buf = cutLines '\n' [] buf := by
  unfold splitComplete
  cases h : rfind '\n' buf with
  | none => exact (Lib.cutLines_of_notMem (rfind_none h) []).symm
  | some idx =>
    obtain ⟨hcut, hlast⟩ := rfind_some h
    have hid : ((buf.take idx).splitOn '\n').modifyHead ([] ++ ·)
        = (buf.take idx).splitOn '\n' := by
      cases (buf.take idx).splitOn '\n' <;> rfl
    have hclosed : cutLines '\n' [] (buf.take idx ++ ['\n'])
        = ((buf.take idx).splitOn '\n', []) := by
      rw [Lib.cutLines_concat_sep, hid]
    have hbuf : buf = (buf.take idx ++ ['\n']) ++ buf.drop (idx + 1) := by
      rwa [List.append_assoc]
    show _ = cutLines '\n' [] buf
    rw [hbuf, Lib.cutLines_append, hclosed, Lib.cutLines_of_notMem hlast, ← hbuf]
    dsimp only
    rw [List.append_nil, List.nil_append]

/-! ## §2. The tailer. -/

/-- The bytes of a file. -/
abbrev Bytes := List UInt8

/-- `LogTailer`, past its path.  `partialLine` is the source's `partial`. -/
structure LogTailer where
  offset : Nat
  partialLine : Text
  deriving DecidableEq

/-- `LogTailer::new`. -/
def LogTailer.new : LogTailer := ⟨0, []⟩

/-- `LogTailer::backlog`, on the bytes `fs::read` returns; `none` is a missing file. -/
def LogTailer.backlog (_self : LogTailer) (file : Option Bytes) (limit : Nat) :
    LogTailer × List Text :=
  match file with
  | none => (⟨0, []⟩, [])
  | some bytes =>
    let (complete, partialLine) := splitComplete (decodeLossy bytes)
    (⟨bytes.length, partialLine⟩, complete.drop (complete.length - limit))

/-- `LogTailer::poll`.  `file` is what is there when the file is opened and its length is
read, `meanwhile` what is appended from then to the end of `read_to_end`. -/
def LogTailer.poll (self : LogTailer) (file : Option Bytes) (meanwhile : Bytes) :
    LogTailer × List Text :=
  match file with
  | none => (self, [])
  | some opened =>
    let len := opened.length
    let self := if len < self.offset then ⟨0, []⟩ else self
    if len = self.offset then (self, [])
    else
      let bytes := (opened ++ meanwhile).drop self.offset
      let (complete, partialLine) := splitComplete (self.partialLine ++ decodeLossy bytes)
      (⟨len, partialLine⟩, complete)

/-! ## §3. A follower beside a growing file. -/

/-- The file, its tailer, and the lines the calls have returned so far. -/
structure Follow where
  file : Option Bytes
  tailer : LogTailer
  delivered : List Text
  deriving DecidableEq

/-- What can happen after the backlog. -/
inductive FollowEvent where
  /-- Another process appends; a file that is not there is made. -/
  | append (bytes : Bytes)
  /-- A poll, during which `meanwhile` is appended. -/
  | poll (meanwhile : Bytes)

namespace Follow

/-- The bytes of the file. -/
def content (s : Follow) : Bytes := s.file.getD []

/-- Append; nothing appended leaves a missing file missing. -/
def grow (file : Option Bytes) (bytes : Bytes) : Option Bytes :=
  if bytes = [] then file else some (file.getD [] ++ bytes)

/-- The state after `backlog` on the file. -/
def init (file : Option Bytes) (limit : Nat) : Follow :=
  let (tailer, lines) := LogTailer.new.backlog file limit
  { file, tailer, delivered := lines }

/-- One event. -/
def step (s : Follow) : FollowEvent → Option Follow
  | .append bytes => some { s with file := grow s.file bytes }
  | .poll meanwhile =>
    let (tailer, lines) := s.tailer.poll s.file meanwhile
    some { file := grow s.file meanwhile, tailer, delivered := s.delivered ++ lines }

/-- The newline-terminated lines of the file. -/
def fileLines (bytes : Bytes) : List Bytes := (cutLines 10 [] bytes).1

/-- What was delivered, as bytes. -/
def deliveredBytes (s : Follow) : List Bytes := s.delivered.map encodeUtf8

theorem content_grow (file : Option Bytes) (bytes : Bytes) :
    (grow file bytes).getD [] = file.getD [] ++ bytes := by
  unfold grow
  split
  next h => rw [h, List.append_nil]
  next => rfl

/-! ## §4. What a read that is not overtaken keeps. -/

/-- The newline is one byte, and no other character's code holds that byte. -/
theorem cutLines_encodeUtf8 (text : Text) : cutLines 10 [] (encodeUtf8 text)
      = ((cutLines '\n' [] text).1.map encodeUtf8, encodeUtf8 (cutLines '\n' [] text).2) := by
  refine Lib.cutLines_flatMap (by decide) (fun c hc => ?_) [] text
  refine Lib.ascii_notMem_encode (by decide) ?_
  intro h
  refine hc ?_
  rw [← Char.ofNat_toNat c, h]
  rfl

/-- **The invariant**: the bytes before the offset are a text, whose lines are what was
delivered and whose unfinished line is what the tailer keeps. -/
structure Followed (s : Follow) : Prop where
  offset_le : s.tailer.offset ≤ s.content.length
  read : ∃ text, s.content.take s.tailer.offset = encodeUtf8 text ∧
    cutLines '\n' [] text = (s.delivered, s.tailer.partialLine)

/-- A read of the tailer that finds what the file then has: at a poll nothing new is there,
or nothing is appended meanwhile and the file ends with a whole character. -/
def ReadsWhole (s : Follow) : FollowEvent → Prop
  | .append _ => True
  | .poll meanwhile =>
    s.content.length = s.tailer.offset ∨ (meanwhile = [] ∧ ValidUtf8 s.content)

variable {s t : Follow}

/-- What was delivered are the lines of the bytes before the offset. -/
theorem Followed.deliveredBytes_eq (hs : Followed s) :
    s.deliveredBytes = fileLines (s.content.take s.tailer.offset) := by
  obtain ⟨text, hread, hcut⟩ := hs.read
  rw [fileLines, hread, cutLines_encodeUtf8, hcut]
  rfl

/-- So they are the first lines of the file. -/
theorem Followed.isPrefix (hs : Followed s) : s.deliveredBytes <+: fileLines s.content := by
  have hsplit : s.content.take s.tailer.offset ++ s.content.drop s.tailer.offset = s.content :=
    List.take_append_drop _ _
  rw [hs.deliveredBytes_eq]
  have hgrown : fileLines (s.content.take s.tailer.offset)
      <+: fileLines (s.content.take s.tailer.offset ++ s.content.drop s.tailer.offset) :=
    Lib.cutLines_isPrefix _ _ _
  rwa [hsplit] at hgrown

/-- Appends are behind the offset. -/
theorem Followed.grow {bytes : Bytes} (hs : Followed s)
    (hfile : t.file = Follow.grow s.file bytes) (htailer : t.tailer = s.tailer)
    (hdelivered : t.delivered = s.delivered) : Followed t := by
  have hcontent : t.content = s.content ++ bytes := by
    rw [content, hfile, content_grow]
    rfl
  refine ⟨?_, ?_⟩
  · rw [htailer, hcontent, List.length_append]
    exact Nat.le_trans hs.offset_le (Nat.le_add_right _ _)
  · rw [htailer, hdelivered, hcontent, List.take_append_of_le_length hs.offset_le]
    exact hs.read

/-- The backlog of a file that is a text, with no line over the limit. -/
theorem followed_init {file : Option Bytes} {limit : Nat} (htext : ValidUtf8 (file.getD []))
    (hlimit : (fileLines (file.getD [])).length ≤ limit) : Followed (init file limit) := by
  cases file with
  | none => exact ⟨Nat.le_refl 0, [], rfl, rfl⟩
  | some bytes =>
    obtain ⟨text, hbytes⟩ := htext
    have hbytes : bytes = encodeUtf8 text := hbytes
    have hdecoded : splitComplete (decodeLossy bytes) = cutLines '\n' [] text := by
      rw [splitComplete_eq, hbytes, Lib.decodeLossy_encode]
    have hcount : (cutLines '\n' [] text).1.length ≤ limit := by
      have hlimit : (fileLines bytes).length ≤ limit := hlimit
      rwa [fileLines, hbytes, cutLines_encodeUtf8, List.length_map] at hlimit
    have hinit : init (some bytes) limit
        = { file := some bytes
            tailer := ⟨bytes.length, (cutLines '\n' [] text).2⟩
            delivered := (cutLines '\n' [] text).1 } := by
      simp only [init, LogTailer.backlog, hdecoded, Nat.sub_eq_zero_of_le hcount, List.drop_zero]
    rw [hinit]
    refine ⟨Nat.le_refl _, text, ?_, rfl⟩
    show bytes.take bytes.length = _
    rw [List.take_length, hbytes]

/-- A poll that finds something new, in a file of whole characters. -/
theorem followed_poll (hs : Followed s) (htext : ValidUtf8 s.content)
    (hnew : s.content.length ≠ s.tailer.offset) (hstep : s.step (.poll []) = some t) :
    Followed t ∧ t.tailer.offset = t.content.length := by
  obtain ⟨old, hold, hcut⟩ := hs.read
  obtain ⟨whole, hwhole⟩ := htext
  cases hfile : s.file with
  | none =>
    -- a missing file has nothing new
    have hempty : s.content = [] := by rw [content, hfile]; rfl
    have hle := hs.offset_le
    rw [hempty, List.length_nil, Nat.le_zero] at hle
    rw [hempty, hle] at hnew
    exact absurd rfl hnew
  | some bytes =>
    have hcontent : s.content = bytes := by rw [content, hfile]; rfl
    rw [hcontent] at hold hwhole hnew
    have hle : s.tailer.offset ≤ bytes.length := hcontent ▸ hs.offset_le
    -- the bytes read are the code of what the text has grown by
    have hdecoded : old ++ decodeLossy (bytes.drop s.tailer.offset) = whole := by
      rw [← Lib.decodeLossy_encode_append, ← hold, List.take_append_drop, hwhole,
        Lib.decodeLossy_encode]
    have hkept : '\n' ∉ s.tailer.partialLine := by
      have h : '\n' ∉ (cutLines '\n' [] old).2 := Lib.notMem_cutLines List.not_mem_nil old
      rwa [hcut] at h
    have hlines : cutLines '\n' [] whole
        = (s.delivered ++ (splitComplete
            (s.tailer.partialLine ++ decodeLossy (bytes.drop s.tailer.offset))).1,
          (splitComplete
            (s.tailer.partialLine ++ decodeLossy (bytes.drop s.tailer.offset))).2) := by
      rw [← hdecoded, Lib.cutLines_append, hcut, splitComplete_eq, Lib.cutLines_carry hkept]
    simp only [step, LogTailer.poll, hfile, if_neg (Nat.not_lt.mpr hle), if_neg hnew,
      List.append_nil] at hstep
    cases hstep
    refine ⟨⟨Nat.le_refl _, whole, ?_, hlines⟩, rfl⟩
    show bytes.take bytes.length = _
    rw [List.take_length, hwhole]

/-- A poll that finds nothing new returns at once. -/
theorem step_poll_idle {meanwhile : Bytes} (hsame : s.content.length = s.tailer.offset)
    (hstep : s.step (.poll meanwhile) = some t) : t = { s with file := grow s.file meanwhile } := by
  cases hfile : s.file with
  | none =>
    simp only [step, LogTailer.poll, hfile, List.append_nil] at hstep
    injection hstep with hstep
    exact hstep.symm
  | some bytes =>
    have hlen : bytes.length = s.tailer.offset := by
      rw [← hsame, content, hfile]
      rfl
    simp only [step, LogTailer.poll, hfile, if_neg (Nat.not_lt.mpr (Nat.le_of_eq hlen.symm)),
      if_pos hlen, List.append_nil] at hstep
    injection hstep with hstep
    exact hstep.symm

/-- **One event** keeps the invariant, if a poll reads what the file then has. -/
theorem followed_step (s : Follow) (event : FollowEvent) (t : Follow) (hs : Followed s)
    (hreads : ReadsWhole s event) (hstep : s.step event = some t) : Followed t := by
  cases event with
  | append =>
    cases hstep
    exact hs.grow rfl rfl rfl
  | poll =>
    by_cases hsame : s.content.length = s.tailer.offset
    · rw [step_poll_idle hsame hstep]
      exact hs.grow rfl rfl rfl
    · obtain ⟨hquiet, htext⟩ := hreads.resolve_left hsame
      subst hquiet
      exact (followed_poll hs htext hsame hstep).1

/-- After a poll during which nothing was appended everything is delivered. -/
theorem deliveredBytes_poll (hs : Followed s) (hreads : ReadsWhole s (.poll []))
    (hstep : s.step (.poll []) = some t) : t.deliveredBytes = fileLines t.content := by
  have ht : Followed t ∧ t.tailer.offset = t.content.length := by
    by_cases hsame : s.content.length = s.tailer.offset
    · refine ⟨followed_step s _ t hs hreads hstep, ?_⟩
      rw [step_poll_idle hsame hstep]
      exact hsame.symm
    · exact followed_poll hs (hreads.resolve_left hsame).2 hsame hstep
  rw [ht.1.deliveredBytes_eq, ht.2, List.take_length]

/-- **Each line once**: the backlog finds a file that is a text and has no more lines than
the limit, and every poll finds nothing new, or a file of whole characters to which
nothing is appended between the length and the read.  Then what was delivered is at every
moment the first lines of the file, and all of them after a poll during which nothing was
appended. -/
theorem tailer_delivers_once {file : Option Bytes} {limit : Nat} {events : List FollowEvent}
    {s : Follow} (htext : ValidUtf8 (file.getD []))
    (hlimit : (fileLines (file.getD [])).length ≤ limit)
    (hreads : Lib.Guarded step ReadsWhole (init file limit) events)
    (hrun : Lib.exec step (init file limit) events = some s) :
    s.deliveredBytes <+: fileLines s.content ∧
      (events.getLast? = some (.poll []) → s.deliveredBytes = fileLines s.content) := by
  have hinit := followed_init htext hlimit
  refine ⟨(Lib.exec_invariant Followed followed_step hinit hreads hrun).isPrefix, ?_⟩
  intro hlast
  obtain ⟨before, hbefore⟩ := List.getLast?_eq_some_iff.mp hlast
  subst hbefore
  obtain ⟨s1, hrun1, hpoll⟩ := Lib.exec_append hrun
  obtain ⟨hreads1, hreadsPoll, -⟩ := Lib.guarded_append hreads hrun1
  obtain ⟨t, hstep, ht⟩ := Lib.exec_cons hpoll
  cases ht
  exact deliveredBytes_poll (Lib.exec_invariant Followed followed_step hinit hreads1 hrun1)
    hreadsPoll hstep

/-- An unfinished line that is completed by an append and read by the next poll. -/
theorem tailer_delivers_appended :
    (Follow.mk (some [97, 10, 98, 195, 169, 10]) ⟨6, []⟩ [['a'], ['b', 'é']]).deliveredBytes
      = fileLines [97, 10, 98, 195, 169, 10] := by
  have htext : ValidUtf8 (Option.getD (some [97, 10, 98]) []) := ⟨['a', '\n', 'b'], by decide⟩
  have hgrown : ValidUtf8 [97, 10, 98, 195, 169, 10] :=
    ⟨['a', '\n', 'b', 'é', '\n'], by decide⟩
  have hreads : Lib.Guarded step ReadsWhole (init (some [97, 10, 98]) 200)
      [.append [195, 169, 10], .poll []] := by
    refine ⟨trivial, fun s1 hs1 => ?_⟩
    cases hs1
    exact ⟨.inr ⟨rfl, hgrown⟩, fun _ _ => trivial⟩
  have hrun : Lib.exec step (init (some [97, 10, 98]) 200) [.append [195, 169, 10], .poll []]
      = some ⟨some [97, 10, 98, 195, 169, 10], ⟨6, []⟩, [['a'], ['b', 'é']]⟩ := by
    decide +kernel
  exact (tailer_delivers_once htext (by decide) hreads hrun).2 rfl

/-- **Where lines are repeated and replaced**, in files that are texts in the end.  The
first follower polls while a line is being written: `x` is there when it reads the length,
the newline when it reads the bytes, and the next poll reads the newline again.  The second
finds the first byte of `é` at its backlog. -/
theorem tailer_repeats_and_replaces :
    (∃ s, Lib.exec step (init (some []) 200) [.append [120], .poll [10], .poll []] = some s ∧
      s.content = encodeUtf8 ['x', '\n'] ∧ fileLines s.content = [encodeUtf8 ['x']] ∧
      s.delivered = [['x'], []]) ∧
    (∃ s, Lib.exec step (init (some [195]) 200) [.append [169, 10], .poll []] = some s ∧
      s.content = encodeUtf8 ['é', '\n'] ∧ fileLines s.content = [encodeUtf8 ['é']] ∧
      s.delivered = [[Lib.replacementChar, Lib.replacementChar]]) := by
  refine ⟨⟨⟨some [120, 10], ⟨2, []⟩, [['x'], []]⟩, ?_⟩,
    ⟨⟨some [195, 169, 10], ⟨3, []⟩, [[Lib.replacementChar, Lib.replacementChar]]⟩, ?_⟩⟩
  · decide +kernel
  · decide +kernel

end Follow

end Denia.Observability
