import Wap4410n.Support.Lines

/-!
# Support — files that are read

A file that `fopen` opened for reading has a position and an indicator that a read ran into the end
of it (`InFile`).  `fgets` sets the indicator, if it looks for more than there is; `fseek` clears
it.

* `lines_afterChunk`: what the calls of `fgets` return are the pieces of what is left (`lines`).
* `afterChunk_forward`: the position goes on, or the indicator is set.
* `Exhausted.afterChunk`: the indicator is not set before all is read.
-/

namespace CLib

/-- A file open for reading. -/
structure InFile where
  content : List Byte
  pos : Nat
  /-- `feof` -/
  eof : Bool
deriving DecidableEq, Repr

namespace InFile

/-- `fopen(path, "r")`, of a file with this content -/
def fopen (content : List Byte) : InFile := ⟨content, 0, false⟩

/-- What was not read. -/
def rest (fp : InFile) : List Byte := fp.content.drop fp.pos

/-- What `fgets(buffer, n + 2, fp)` stores before the NUL; nothing is stored at the end. -/
def chunk (n : Nat) (fp : InFile) : List Byte := (lines n fp.rest).headD []

/-- The file behind `fgets(buffer, n + 2, fp)`. -/
def afterChunk (n : Nat) (fp : InFile) : InFile :=
  let l := fp.chunk n
  { fp with
    pos := fp.pos + l.length
    -- the end was looked at unless the buffer is full or a line feed was found
    eof := fp.eof || (decide (l.length < n + 1) && decide (l.getLast? ≠ some 0x0a)) }

/-- `fgets(buffer, n + 2, fp)` -/
def fgets (n : Nat) (fp : InFile) : List Byte × InFile := (fp.chunk n, fp.afterChunk n)

/-- `fseek(fp, pos, SEEK_SET)` -/
def fseek (fp : InFile) (pos : Nat) : InFile := { fp with pos := pos, eof := false }

/-- The end that was seen is the end of the file. -/
def Exhausted (fp : InFile) : Prop := fp.eof = true → fp.rest = []

/-- What is left to do with a file: its bytes, each twice, and to see its end. -/
def left (fp : InFile) : Nat := 2 * fp.rest.length + if fp.eof then 0 else 1

variable (n : Nat) (fp : InFile)

/-- The pieces, if there is something left. -/
theorem lines_rest (h : fp.rest ≠ []) : ∃ ls, lines n fp.rest = fp.chunk n :: ls := by
  obtain ⟨l, ls, hl⟩ := List.exists_cons_of_ne_nil (linesFrom_ne_nil (n := n) (k := n) h)
  refine ⟨ls, ?_⟩
  rw [chunk, lines, hl]
  rfl

theorem chunk_nil (h : fp.rest = []) : fp.chunk n = [] := by
  rw [chunk, h]
  rfl

/-- A piece fits. -/
theorem length_chunk_le : (fp.chunk n).length ≤ n + 1 := by
  by_cases h : fp.rest = []
  · rw [chunk_nil n fp h]
    exact Nat.zero_le _
  · obtain ⟨ls, hls⟩ := lines_rest n fp h
    exact (lines_eq_cons hls).2.1

theorem rest_afterChunk : fp.rest = fp.chunk n ++ (fp.afterChunk n).rest := by
  have hdrop : (fp.afterChunk n).rest = fp.rest.drop (fp.chunk n).length := by
    rw [rest, rest, List.drop_drop]
    rfl
  by_cases h : fp.rest = []
  · rw [hdrop, chunk_nil n fp h, h]
    rfl
  · obtain ⟨ls, hls⟩ := lines_rest n fp h
    obtain ⟨-, -, t, ht, -⟩ := lines_eq_cons hls
    rw [hdrop]
    nth_rewrite 2 [ht]
    rw [List.drop_left]
    exact ht

/-- **The pieces** of what is left, one after the other. -/
theorem lines_afterChunk (h : fp.rest ≠ []) :
    lines n fp.rest = fp.chunk n :: lines n (fp.afterChunk n).rest := by
  obtain ⟨ls, hls⟩ := lines_rest n fp h
  obtain ⟨-, -, t, ht, rfl, -⟩ := lines_eq_cons hls
  have hrest := rest_afterChunk n fp
  rw [ht] at hrest
  rw [hls, List.append_cancel_left hrest]

theorem rest_afterChunk_nil (h : fp.rest = []) : (fp.afterChunk n).rest = [] := by
  have hall := rest_afterChunk n fp
  rw [h] at hall
  exact (List.append_eq_nil_iff.mp hall.symm).2

theorem exhausted_fopen (content : List Byte) : (fopen content).Exhausted :=
  fun h => absurd h Bool.false_ne_true

/-- **The end** is looked at when nothing is left. -/
theorem Exhausted.afterChunk {fp : InFile} (h : fp.Exhausted) : (fp.afterChunk n).Exhausted := by
  intro heof
  by_cases hrest : fp.rest = []
  · exact rest_afterChunk_nil n fp hrest
  · have hopen : fp.eof = false := Bool.eq_false_iff.mpr (mt h hrest)
    obtain ⟨ls, hls⟩ := lines_rest n fp hrest
    obtain ⟨-, -, t, ht, -, hend⟩ := lines_eq_cons hls
    have hall := rest_afterChunk n fp
    rw [ht] at hall
    simp only [InFile.afterChunk, hopen, Bool.false_or, Bool.and_eq_true, decide_eq_true_eq] at heof
    exact (List.append_cancel_left hall).symm.trans (hend heof.1 heof.2)

/-- **A read** goes on, or sees the end. -/
theorem afterChunk_forward (h : fp.eof = false) :
    (fp.afterChunk n).left < fp.left ∧
      (fp.pos < (fp.afterChunk n).pos ∨ (fp.afterChunk n).eof = true) := by
  by_cases hrest : fp.rest = []
  · have hnil := rest_afterChunk_nil n fp hrest
    have heof : (fp.afterChunk n).eof = true := by simp [afterChunk, chunk_nil n fp hrest]
    exact ⟨by simp [left, hnil, hrest, heof, h], .inr heof⟩
  · obtain ⟨ls, hls⟩ := lines_rest n fp hrest
    have hpos : 0 < (fp.chunk n).length := List.length_pos_iff.mpr (lines_eq_cons hls).1
    refine ⟨?_, .inl (Nat.lt_add_of_pos_right hpos)⟩
    have hlen := congrArg List.length (rest_afterChunk n fp)
    rw [List.length_append] at hlen
    rw [left, left, h]
    split <;> simp <;> omega

end InFile

end CLib
