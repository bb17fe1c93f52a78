import Wap4410n.Nvram.Store

/-!
# Nvram — `nvram_set` and `nvram_get_fun` on a store

The scan of `nvram_set` looks at every record and rewrites each whose text starts with `name=`
(`Hits`).  On the file of a store at most one record does, because the name of a record is what
precedes its first `'='`; so the loop replaces one record in place or none
(`setLoop_encode`), and the new file is that of the updated store (`image_name`).

* `nvramSet_eq`: the bytes a call requests, stores and leaves in the file, for any strings.
* `nvramSet_represents`: a call is one update of the store.
* `nvramGetFun_represents`: the lookup of a name is the store's.
* `nvramSets_refine_map`: any sequence of calls is the sequence of updates.
* `stored_le_allocated_iff`: the stores of a call stay inside `targetspace` just when the file was
  not empty.
-/

namespace Wap4410n.Nvram

open CLib CLib.Assoc

/-! ### The test on a record -/

/-- The text of the record starts with `name=`. -/
def Hits (name : CStr) (r : Name × CStr) : Prop := (name.bytes ++ [eqSign]) <+: (text r).bytes

instance (name : CStr) (r : Name × CStr) : Decidable (Hits name r) :=
  inferInstanceAs (Decidable (_ <+: _))

theorem lineIs_append (name t : CStr) (r : List Byte) :
    lineIs name (t.bytes ++ endSymbol :: r) =
      .ok (decide ((name.bytes ++ [eqSign]) <+: t.bytes)) := by
  have h₀ : (endSymbol == eqSign) = false := by decide
  unfold lineIs
  rw [strncmpEq_append name.noNul]
  by_cases h : name.bytes <+: t.bytes
  · obtain ⟨u, hu⟩ := h
    cases u with
    | nil =>
        rw [List.append_nil] at hu
        have hn : ¬ (name.bytes ++ [eqSign]) <+: name.bytes := fun h => by
          have := h.length_le
          rw [List.length_append] at this
          exact Nat.not_succ_le_self _ this
        simp [← hu, CStr.length, h₀, hn]
    | cons c u =>
        rw [← hu]
        simp [CStr.length, eq_comm, beq_eq_decide]
  · have hn : ¬ (name.bytes ++ [eqSign]) <+: t.bytes :=
      fun h' => h ((List.prefix_append _ _).trans h')
    simp [h, hn]

/-- The name of a record that is hit is what precedes the first `'='` of `name=`. -/
theorem Hits.name_eq {name : CStr} {r : Name × CStr} (h : Hits name r) :
    r.1.str.bytes = (name.bytes ++ [eqSign]).takeWhile (· ≠ eqSign) := by
  obtain ⟨u, hu⟩ := h
  have cut : ∀ l u : List Byte, (l ++ eqSign :: u).takeWhile (· ≠ eqSign) =
      (l ++ [eqSign]).takeWhile (· ≠ eqSign) := fun l u => by
    induction l with
    | nil => simp
    | cons b l ih =>
        by_cases hb : b = eqSign
        · simp [hb]
        · simpa [hb] using ih
  have := takeWhile_line r.1 r.2 []
  rw [List.append_nil] at this
  rw [← this, ← hu, List.append_assoc]
  exact cut name.bytes u

/-- A proper name hits exactly its own record. -/
theorem hits_name {n : Name} {r : Name × CStr} : Hits n.str r ↔ r.1 = n := by
  constructor
  · intro h
    have := h.name_eq
    have hn := takeWhile_line n ⟨[], by simp⟩ []
    simp only [bytes_line, List.append_nil] at hn
    rw [hn] at this
    exact Name.ext (CStr.ext this)
  · rintro rfl
    exact ⟨r.2.bytes, by simp⟩

/-- Two records with different names are not both hit. -/
theorem Hits.name_unique {name : CStr} {r r' : Name × CStr} (h : Hits name r) (h' : Hits name r') :
    r.1 = r'.1 :=
  Name.ext (CStr.ext (h.name_eq.trans h'.name_eq.symm))

/-! ### The inner loops -/

theorem toNul_append {b : Byte} {t : List Byte} (ht : (0 : Byte) ∉ t) (r : List Byte) :
    toNul (b :: (t ++ endSymbol :: r)) = .ok (endSymbol :: r) := by
  induction t generalizing b with
  | nil => simp [toNul]
  | cons c t ih =>
      have hc : c ≠ endSymbol := fun e => ht (by simp [e])
      have ht' : (0 : Byte) ∉ t := fun h => ht (by simp [h])
      simp only [List.cons_append, toNul]
      rw [if_neg hc, ih ht']

theorem copyToNul_append {t : List Byte} (ht : (0 : Byte) ∉ t) (r : List Byte) (sp : Cursor) :
    copyToNul (t ++ endSymbol :: r) sp = .ok (endSymbol :: r, sp.putAll t) := by
  induction t generalizing sp with
  | nil => simp [copyToNul]
  | cons c t ih =>
      have hc : c ≠ endSymbol := fun e => ht (by simp [e])
      have ht' : (0 : Byte) ∉ t := fun h => ht (by simp [h])
      simp only [List.cons_append, copyToNul]
      rw [if_neg hc, ih ht', Cursor.putAll_cons]

theorem putLine_wrote {sp : Cursor} {w : List Byte} (h : sp.Wrote w) (name value : CStr) :
    (putLine name value sp).Wrote (w ++ (line name value).bytes) := by
  have := ((h.strcpy_advance name).put eqSign).strcpy_advance value
  simpa [putLine] using this

@[simp] theorem size_putLine (name value : CStr) (sp : Cursor) :
    (putLine name value sp).block.size = sp.block.size := rfl

/-! ### The scan -/

/-- The records as the scan of `nvram_set` copies them: each that is hit replaced. -/
def rewrite (name value : CStr) (l : List (Name × CStr)) : List Byte :=
  l.flatMap fun r => (if Hits name r then line name value else text r).mem

theorem rewrite_cons (name value : CStr) (r : Name × CStr) (l : List (Name × CStr)) :
    rewrite name value (r :: l) =
      (if Hits name r then line name value else text r).mem ++ rewrite name value l := by
  simp [rewrite]

/-- **The scan of `nvram_set` at one record.** -/
theorem setLoop_record (name value : CStr) (r : Name × CStr) (m : List Byte) (found : Bool)
    (sp : Cursor) :
    setLoop name value ((text r).bytes ++ endSymbol :: m) found sp =
      if Hits name r then setLoop name value m true ((putLine name value sp).put endSymbol)
      else setLoop name value m found ((sp.putAll (text r).bytes).put endSymbol) := by
  obtain ⟨b, t, hb, hne⟩ := text_eq_cons r
  have ht : (0 : Byte) ∉ t := fun h => (text r).noNul (hb ▸ List.mem_cons_of_mem b h)
  have hline : lineIs name (b :: (t ++ endSymbol :: m)) = .ok (decide (Hits name r)) := by
    have := lineIs_append name (text r) m
    rwa [hb, List.cons_append, ← hb] at this
  by_cases hit : Hits name r
  · -- the record is replaced: its own text is skipped, and nothing of it is copied
    have hcopy : copyToNul (endSymbol :: m) (putLine name value sp) =
        .ok (endSymbol :: m, putLine name value sp) := by
      simp [copyToNul]
    rw [decide_eq_true hit] at hline
    rw [if_pos hit, hb, List.cons_append, setLoop_hit hne hline (toNul_append ht _) hcopy,
      List.tail_cons]
  · -- the record is copied
    have hcopy := copyToNul_append (hb ▸ (text r).noNul) m sp
    rw [decide_eq_false hit] at hline
    rw [if_neg hit, hb, List.cons_append, setLoop_miss hne hline hcopy, List.tail_cons]

/-- **The scan of `nvram_set` over the records `l`.** -/
theorem setLoop_encode (name value : CStr) (l : List (Name × CStr)) :
    ∀ {found : Bool} {sp : Cursor} {w : List Byte}, sp.Wrote w →
      ∃ sp', setLoop name value (encode l) found sp =
          .ok (found || decide (∃ r ∈ l, Hits name r), sp') ∧
        sp'.Wrote (w ++ rewrite name value l) ∧ sp'.block.size = sp.block.size := by
  induction l with
  | nil =>
      intro found sp w h
      exact ⟨sp, by simp, by simpa [rewrite] using h, rfl⟩
  | cons r l ih =>
      intro found sp w h
      rw [rewrite_cons, encode_cons, setLoop_record]
      by_cases hit : Hits name r
      · obtain ⟨sp', hrun, hw, hs⟩ :=
          @ih true _ _ ((putLine_wrote h name value).put endSymbol)
        have hd : decide (∃ r' ∈ r :: l, Hits name r') = true :=
          decide_eq_true ⟨r, List.mem_cons_self, hit⟩
        refine ⟨sp', ?_, ?_, hs⟩
        · rw [if_pos hit, hrun, hd]
          simp
        · rw [if_pos hit]
          simpa [CStr.mem] using hw
      · obtain ⟨sp', hrun, hw, hs⟩ :=
          @ih found _ _ ((h.putAll (text r).bytes).put endSymbol)
        have hd : decide (∃ r' ∈ r :: l, Hits name r') = decide (∃ r' ∈ l, Hits name r') := by
          simp [hit]
        refine ⟨sp', ?_, ?_, by simpa using hs⟩
        · rw [if_neg hit, hrun, hd]
        · rw [if_neg hit, CStr.mem]
          simpa using hw

/-! ### One call -/

/-- The file `nvram_set` writes. -/
def image (name value : CStr) (l : List (Name × CStr)) : List Byte :=
  rewrite name value l ++ (if ∃ r ∈ l, Hits name r then []
    else (line name value).mem) ++ [endSymbol]

/-- An empty file and a missing one are read as no bytes; any other as its own. -/
theorem getD_readFileBin {sys : Sys} (hs : sys.Serves) (p : Path) (f : Option (List Byte)) :
    (readFileBin sys p f).getD [] = f.getD [] := by
  cases f with
  | none => rfl
  | some bytes =>
      cases bytes with
      | nil =>
          simp only [readFileBin]
          split <;> rfl
      | cons b s => simp [readFileBin, hs.opens, hs.malloc, hs.reads]

theorem readFileBin_eq {sys : Sys} (hs : sys.Serves) (p : Path) {bytes : List Byte}
    (h : bytes ≠ []) : readFileBin sys p (some bytes) = some bytes := by
  have : 0 < bytes.length := List.length_pos_iff.mpr h
  simp [readFileBin, hs.opens, hs.malloc _ this, hs.reads]

theorem writeFileBin_eq {sys : Sys} (hs : sys.Serves) (f : Option (List Byte))
    (data : List Byte) : writeFileBin sys f data data.length = some data := by
  have h : ¬ ((data.length : Int) < 0) := by omega
  simp [writeFileBin, hs.creates, hs.shadow, h]

/-- **A call of `nvram_set`**, for any two strings, where what it reads is nothing or the records
`l`. -/
theorem nvramSet_image (sys : Sys) {f : Option (List Byte)} {l : List (Name × CStr)}
    (hread : (readFileBin sys .shadow f).getD [] = [] ∧ l = [] ∨
      (readFileBin sys .shadow f).getD [] = encode l) (name value : CStr) :
    nvramSet sys f name value =
      if sys.malloc (((readFileBin sys .shadow f).getD []).length + name.length + value.length + 2)
      then .ok {
        ret := nvramSuccess
        allocated :=
          ((readFileBin sys .shadow f).getD []).length + name.length + value.length + 2
        stored := (image name value l).length
        shadow := writeFileBin sys f (image name value l) (image name value l).length }
      else .error (.null .targetspace) := by
  have finish : ∀ {sp : Cursor} {w : List Byte}, sp.Wrote w →
      (sp.poke endSymbol).block.bytes = w ++ [endSymbol] ∧
        (sp.poke endSymbol).pos + 1 = (w ++ [endSymbol]).length := fun h =>
    ⟨h.bytes_poke endSymbol, by simp [Cursor.poke, h.pos_eq]⟩
  have hput : ∀ {sp : Cursor} {w : List Byte}, sp.Wrote w →
      ((putLine name value sp).put endSymbol).Wrote (w ++ (line name value).mem) := fun h => by
    simpa [CStr.mem] using (putLine_wrote h name value).put endSymbol
  unfold nvramSet
  generalize (readFileBin sys .shadow f).getD [] = bufspace at hread ⊢
  have hw₀ := Cursor.wrote_start (bufspace.length + name.length + value.length + 2)
  rcases hread with ⟨rfl, rfl⟩ | rfl
  · -- nothing was read: the record is written alone
    have hreq : ([] : List Byte).length + name.length + value.length + 2 =
        name.length + value.length + 2 := by simp
    rw [hreq] at hw₀ ⊢
    obtain ⟨hb, hp⟩ := finish (hput hw₀)
    have hi : image name value [] = [] ++ (line name value).mem ++ [endSymbol] := by
      simp [image, rewrite]
    rw [← hi] at hb hp
    cases hm : sys.malloc (name.length + value.length + 2) with
    | false => simp [hm]
    | true =>
        simp only [List.length_nil, Nat.lt_irrefl, if_false, hm, Bool.not_true, Bool.false_eq_true,
          if_true, Run.ok_bind, Run.pure_eq]
        rw [hb, hp]
  · have hlen : 0 < (encode l).length := List.length_pos_iff.mpr (encode_ne_nil _)
    cases hm : sys.malloc ((encode l).length + name.length + value.length + 2) with
    | false => simp [hlen, hm]
    | true =>
        obtain ⟨sp, hrun, hw, -⟩ := @setLoop_encode name value l false _ _ hw₀
        simp only [hlen, if_true, hm, Bool.not_true, Bool.false_eq_true, if_false, hrun,
          Run.ok_bind, Run.pure_eq, Bool.false_or, List.nil_append] at hw ⊢
        by_cases hit : ∃ r ∈ l, Hits name r
        · have hi : image name value l = rewrite name value l ++ [endSymbol] := by
            simp [image, hit]
          obtain ⟨hb, hp⟩ := finish hw
          rw [← hi] at hb hp
          rw [if_pos (decide_eq_true hit), hb, hp]
        · have hi : image name value l =
              rewrite name value l ++ (line name value).mem ++ [endSymbol] := by
            simp [image, hit]
          obtain ⟨hb, hp⟩ := finish (hput hw)
          rw [← hi] at hb hp
          rw [if_neg (by simpa using hit), hb, hp]

/-- On a file that holds a store, where every call of the system succeeds. -/
theorem nvramSet_eq {sys : Sys} (hs : sys.Serves) {f : Option (List Byte)} {st : Store}
    (hf : Represents f st) (name value : CStr) :
    nvramSet sys f name value = .ok {
      ret := nvramSuccess
      allocated := (f.getD []).length + name.length + value.length + 2
      stored := (image name value st.recs).length
      shadow := some (image name value st.recs) } := by
  have hread : (readFileBin sys .shadow f).getD [] = [] ∧ st.recs = [] ∨
      (readFileBin sys .shadow f).getD [] = encode st.recs := by
    rw [getD_readFileBin hs]
    rcases hf.getD with ⟨he, rfl⟩ | rfl
    · exact .inl ⟨he, rfl⟩
    · exact .inr rfl
  rw [nvramSet_image sys hread, if_pos (hs.malloc _ (by omega)), getD_readFileBin hs,
    writeFileBin_eq hs]

/-! ### One call as an update of the store -/

/-- A call that returns, on any file, returns `NVRAM_SUCCESS`. -/
theorem nvramSet_ret {sys : Sys} {f : Option (List Byte)} {name value : CStr} {run : SetRun}
    (h : nvramSet sys f name value = .ok run) : run.ret = nvramSuccess := by
  unfold nvramSet at h
  by_cases hpos : 0 < ((readFileBin sys .shadow f).getD []).length
  · simp only [if_pos hpos] at h
    split at h
    · cases h
    · cases hloop : setLoop name value ((readFileBin sys .shadow f).getD []) false
          (Cursor.start (Block.fresh
            (((readFileBin sys .shadow f).getD []).length + name.length + value.length + 2))) with
      | error e =>
          rw [hloop] at h
          cases h
      | ok x =>
          rw [hloop] at h
          cases h
          rfl
  · simp only [if_neg hpos] at h
    split at h
    · cases h
    · cases h
      rfl

theorem encodeRecs_of_not_hits {name : CStr} (value : CStr) {l : List (Name × CStr)}
    (h : ∀ r ∈ l, ¬ Hits name r) : rewrite name value l = encodeRecs l := by
  induction l with
  | nil => rfl
  | cons r l ih =>
      rw [rewrite_cons, encodeRecs_cons, if_neg (h r List.mem_cons_self),
        ih fun r' hr' => h r' (List.mem_cons_of_mem r hr')]

theorem exists_hits_name {n : Name} {l : List (Name × CStr)} :
    (∃ r ∈ l, Hits n.str r) ↔ n ∈ keys l := by
  simp only [hits_name, keys, List.mem_map]

/-- **For a proper name the new file is that of the updated records.** -/
theorem image_name (n : Name) (v : CStr) {l : List (Name × CStr)} (h : (keys l).Nodup) :
    image n.str v l = encode (upsert n v l) := by
  by_cases hn : n ∈ keys l
  · obtain ⟨pre, u, post, rfl, hpre⟩ := exists_split hn
    have hd : (keys pre ++ n :: keys post).Nodup := by simpa [keys] using h
    have hpost : n ∉ keys post := (List.nodup_cons.mp (List.nodup_append.mp hd).2.1).1
    have hnone : ∀ {m : List (Name × CStr)}, n ∉ keys m → ∀ r ∈ m, ¬ Hits n.str r :=
      fun hm r hr hit => hm (exists_hits_name.mp ⟨r, hr, hit⟩)
    have hsplit : rewrite n.str v (pre ++ (n, u) :: post) =
        rewrite n.str v pre ++ ((line n.str v).mem ++ rewrite n.str v post) := by
      have : Hits n.str (n, u) := hits_name.mpr rfl
      simp [rewrite, this]
    rw [upsert_append hpre, image, if_pos (exists_hits_name.mpr hn), hsplit,
      encodeRecs_of_not_hits v (hnone hpre), encodeRecs_of_not_hits v (hnone hpost), encode,
      encodeRecs_append, encodeRecs_cons]
    simp
  · have hno : ∀ r ∈ l, ¬ Hits n.str r := fun r hr hit => hn (exists_hits_name.mp ⟨r, hr, hit⟩)
    rw [image, if_neg (mt exists_hits_name.mp hn), upsert_of_notMem hn,
      encodeRecs_of_not_hits v hno, encode, encodeRecs_append]
    simp [encodeRecs]

/-- **A call with a proper name is one update of the store.** -/
theorem nvramSet_represents {sys : Sys} (hs : sys.Serves) {f : Option (List Byte)} {st : Store}
    (hf : Represents f st) (n : Name) (v : CStr) :
    ∃ r, nvramSet sys f n.str v = .ok r ∧ r.ret = nvramSuccess ∧
      r.shadow = some (encode (st.set n v).recs) := by
  refine ⟨_, nvramSet_eq hs hf n.str v, rfl, ?_⟩
  rw [image_name n v st.distinct]
  rfl

/-! ### Lookups -/

/-- **The scan of `nvram_get_fun`**: the value of the name in the records. -/
theorem getLoop_encode {sys : Sys} (hs : sys.Serves) {p : Ptr Obj} {n : Name} (hp : p.Holds n.str)
    (l : List (Name × CStr)) : getLoop sys p (encode l) = .ok ((l.lookup n).map CStr.mem) := by
  induction l with
  | nil => simp
  | cons r l ih =>
      obtain ⟨m, v⟩ := r
      obtain ⟨b, t, hb, hne⟩ := text_eq_cons (m, v)
      have ht : (0 : Byte) ∉ t := fun h => (text (m, v)).noNul (hb ▸ List.mem_cons_of_mem b h)
      have hline := lineIs_append n.str (text (m, v)) (encode l)
      have hdec : decide ((n.str.bytes ++ [eqSign]) <+: (text (m, v)).bytes) = decide (m = n) :=
        decide_eq_decide.mpr (hits_name (r := (m, v)))
      rw [hdec, hb, List.cons_append] at hline
      rw [encode_cons, hb, List.cons_append, lookup_cons_eq]
      by_cases h : m = n
      · subst h
        rw [decide_eq_true rfl] at hline
        rw [getLoop_hit hne hp.string hline, if_pos rfl, ← List.cons_append, ← hb]
        have hsize : (text (m, v)).length - m.str.length = v.length + 1 := by
          show (line m.str v).length - m.str.length = _
          rw [length_line]; omega
        have hdrop : ((text (m, v)).bytes ++ endSymbol :: encode l).drop (m.str.length + 1) =
            v.mem ++ encode l := by
          simp [CStr.length, CStr.mem, List.drop_append]
        unfold copyValue
        rw [stringAt_append]
        simp only [Run.ok_bind, hsize, hs.malloc _ (Nat.succ_pos _), if_true, hdrop, Run.map_ok]
        rw [← CStr.length_mem, List.take_left]
        rfl
      · rw [decide_eq_false h] at hline
        rw [getLoop_miss hne hp.string hline (toNul_append ht _), List.tail_cons, ih,
          if_neg (Ne.symm h)]

theorem nvramGetFun_represents {sys : Sys} (hs : sys.Serves) {f : Option (List Byte)} {st : Store}
    (hf : Represents f st) (hne : f ≠ some []) {p : Ptr Obj} {n : Name} (hp : p.Holds n.str)
    (path : Path) : nvramGetFun sys p path f = .ok ((st.get n).map CStr.mem) := by
  cases hf with
  | missing => rfl
  | zeroLength => exact absurd rfl hne
  | file =>
      rw [nvramGetFun, readFileBin_eq hs path (encode_ne_nil _)]
      exact getLoop_encode hs hp st.recs

/-! ### Runs -/

/-- Calls of `nvram_set`, one after the other: the shadow they leave. -/
def nvramSets (sys : Sys) : Option (List Byte) → List (Name × CStr) →
    Run Obj (Option (List Byte))
  | f, [] => .ok f
  | f, (n, v) :: cs => do nvramSets sys (← nvramSet sys f n.str v).shadow cs

/-- A run of calls is the sequence of updates, and only the empty run can leave an empty file. -/
theorem nvramSets_represents {sys : Sys} (hs : sys.Serves) (cs : List (Name × CStr)) :
    ∀ {f : Option (List Byte)} {st : Store}, Represents f st →
      ∃ f', nvramSets sys f cs = .ok f' ∧ Represents f' (st.setAll cs) ∧
        (cs ≠ [] ∨ f ≠ some [] → f' ≠ some []) := by
  induction cs with
  | nil => exact fun {f st} hf => ⟨f, rfl, hf, fun h => h.resolve_left fun h => h rfl⟩
  | cons c cs ih =>
      intro f st hf
      obtain ⟨n, v⟩ := c
      obtain ⟨r, hr, -, hsh⟩ := nvramSet_represents hs hf n v
      have hne : r.shadow ≠ some [] := fun e =>
        encode_ne_nil (st.set n v).recs (Option.some.inj (hsh.symm.trans e))
      obtain ⟨f', hrun, hrep, hne'⟩ :=
        @ih r.shadow (st.set n v) (hsh ▸ Represents.file _)
      exact ⟨f', by rw [nvramSets, hr, Run.ok_bind, hrun], hrep, fun _ => hne' (.inr hne)⟩

/-- **The shadow refines a finite map over whole runs.**  From a file that holds the store `st`,
any sequence of calls leaves a file that holds `st` after the same updates, so that

* a name that was set reads the last value it was set to;
* every other name keeps its value, and every name reads it;
* the names of `st` stand first and in their order, each new one comes last. -/
theorem nvramSets_refine_map {sys : Sys} (hs : sys.Serves) {f : Option (List Byte)} {st : Store}
    (hf : Represents f st) (cs : List (Name × CStr)) :
    ∃ f', nvramSets sys f cs = .ok f' ∧ Represents f' (st.setAll cs) ∧
      (∀ pre n v post, cs = pre ++ (n, v) :: post → n ∉ keys post → ∀ p : Ptr Obj,
        p.Holds n.str → nvramGetFun sys p .shadow f' = .ok (some v.mem)) ∧
      (∀ n, n ∉ keys cs → (st.setAll cs).get n = st.get n) ∧
      (cs ≠ [] ∨ f ≠ some [] → ∀ n (p : Ptr Obj), p.Holds n.str →
        nvramGetFun sys p .shadow f' = .ok (((st.setAll cs).get n).map CStr.mem)) ∧
      (st.setAll cs).names =
        (keys cs).foldl (fun ns n => if n ∈ ns then ns else ns ++ [n]) st.names := by
  obtain ⟨f', hrun, hrep, hne⟩ := nvramSets_represents hs cs hf
  refine ⟨f', hrun, hrep, fun pre n v post hcs hpost p hp => ?_,
    fun n hn => lookup_upsertAll_of_notMem hn st.recs,
    fun h n p hp => nvramGetFun_represents hs hrep (hne h) hp .shadow,
    keys_upsertAll st.recs cs⟩
  have hlast : (st.setAll cs).get n = some v := by
    rw [hcs]
    exact lookup_upsertAll_last st.recs pre post hpost
  have hcs' : cs ≠ [] := by simp [hcs]
  rw [nvramGetFun_represents hs hrep (hne (.inl hcs')) hp .shadow, hlast]
  rfl

/-- Setting `a` and then emptying `ab`, in a file whose `ab` holds the text of a record of `a`: `a`
reads its value, and comes last. -/
theorem nvramSets_refine_map_prefix :
    ∃ f', nvramSets .ideal (some (encode [(.lit ['a', 'b'], .lit ['a', '=', '1'])]))
        [(.lit ['a'], .lit ['=', 'x']), (.lit ['a', 'b'], .lit [])] = .ok f' ∧
      nvramGetFun .ideal (.ofString .payload (.lit ['a'])) .shadow f' =
        .ok (some (CStr.lit ['=', 'x']).mem) ∧
      f' = some (encode [(.lit ['a', 'b'], .lit []), (.lit ['a'], .lit ['=', 'x'])]) := by
  obtain ⟨f', hrun, hrep, hlast, -⟩ := nvramSets_refine_map Sys.serves_ideal
    (.file ⟨[(.lit ['a', 'b'], .lit ['a', '=', '1'])], by decide⟩)
    [(.lit ['a'], .lit ['=', 'x']), (.lit ['a', 'b'], .lit [])]
  refine ⟨f', hrun, hlast [] _ _ _ rfl (by decide) _ (Ptr.holds_ofString _ _), ?_⟩
  rcases hrep.getD with ⟨-, he⟩ | he
  · cases he
  · exact he

/-! ### The bytes stored -/

/-- At most one record is replaced, so the rewritten records and the appended one take at most one
line more than the records did. -/
theorem length_rewrite_le (name value : CStr) {l : List (Name × CStr)} (h : (keys l).Nodup) :
    (rewrite name value l ++ if ∃ r ∈ l, Hits name r then [] else (line name value).mem).length ≤
      (encodeRecs l).length + (line name value).mem.length := by
  induction l with
  | nil => simp [rewrite, encodeRecs]
  | cons r l ih =>
      obtain ⟨hr, hl⟩ := List.nodup_cons.mp (show (r.1 :: keys l).Nodup from h)
      rw [rewrite_cons, encodeRecs_cons]
      by_cases hit : Hits name r
      · have hno : ∀ r' ∈ l, ¬ Hits name r' := fun r' hr' hit' =>
          hr (List.mem_map.mpr ⟨r', hr', (hit'.name_unique hit)⟩)
        have hex : ∃ r' ∈ r :: l, Hits name r' := ⟨r, List.mem_cons_self, hit⟩
        rw [if_pos hit, if_pos hex, encodeRecs_of_not_hits value hno]
        simp only [List.append_nil, List.length_append]
        omega
      · have hex : (∃ r' ∈ r :: l, Hits name r') ↔ ∃ r' ∈ l, Hits name r' := by simp [hit]
        have := ih hl
        simp only [if_neg hit, hex, List.append_assoc, List.length_append] at this ⊢
        omega

/-- **The stores of a call stay inside `targetspace` just when the file was not empty.**  A file
that is missing or of length zero has no closing NUL for the size to count. -/
theorem stored_le_allocated_iff {sys : Sys} (hs : sys.Serves) {f : Option (List Byte)}
    {st : Store} (hf : Represents f st) (name value : CStr) :
    ∃ r, nvramSet sys f name value = .ok r ∧
      (r.stored ≤ r.allocated ↔ ∃ bytes, f = some bytes ∧ bytes ≠ []) := by
  refine ⟨_, nvramSet_eq hs hf name value, ?_⟩
  rcases hf.getD with ⟨he, rfl⟩ | rfl
  · have hno : ¬ ∃ bytes, f = some bytes ∧ bytes ≠ [] := fun ⟨bytes, hb, hne⟩ => by
      rw [hb] at he
      exact hne he
    simp [hno, he, image, Store.empty, rewrite]
  · have hyes : ∃ bytes, some (encode st.recs) = some bytes ∧ bytes ≠ [] :=
      ⟨_, rfl, encode_ne_nil _⟩
    have hle := length_rewrite_le name value st.distinct
    rw [CStr.length_mem, length_line] at hle
    refine iff_of_true ?_ hyes
    simp only [image, encode, Option.getD_some, List.length_append, List.length_singleton] at hle ⊢
    omega

/-- On a file with one record the two sizes agree. -/
theorem stored_le_allocated_iff_one :
    ∃ r, nvramSet .ideal (some (encode [(.lit ['a'], .lit [])])) (.lit ['b']) (.lit ['c']) = .ok r ∧
      r.stored ≤ r.allocated := by
  obtain ⟨r, hr, hiff⟩ := stored_le_allocated_iff Sys.serves_ideal
    (.file ⟨[(.lit ['a'], .lit [])], by decide⟩) (.lit ['b']) (.lit ['c'])
  exact ⟨r, hr, hiff.mpr ⟨_, rfl, encode_ne_nil _⟩⟩

/-- The first record of a missing file: 4 bytes are requested and 5 are stored. -/
theorem stored_exceeds_allocated :
    ∃ r, nvramSet .ideal none (.lit ['a']) (.lit ['b']) = .ok r ∧ r.allocated = 4 ∧ r.stored = 5 :=
  ⟨_, nvramSet_eq Sys.serves_ideal .missing _ _, by decide, by decide⟩

end Wap4410n.Nvram
