import BidProof.Upload.Content

/-!
# The names of stored uploads

`create_run` checks the suffix of the name that the client sends, and stores the file under that
name with a number in front and every `..` replaced by `_`.  The stored file is a direct child of
the directory of the run, under a name of its own.  Its suffix, which decides what the content is
checked for, is the accepted one exactly when an odd number of dots stands before the extension
(`stored_right_iff`).
-/

namespace BidProof

open CreateRun (suffix isSupported)

/-! ## Intake -/

/-- A form with uploads: the names that the client sends and the texts beside the files. -/
structure Intake where
  tender : String
  evidence : List String
  company_name : List Char := "未填写企业".toList
  evidence_metadata : Option (List Char) := none

/-- The evidence files; a part without a file name is none. -/
def Intake.named (intake : Intake) : List String := intake.evidence.filter (· ≠ "")

/-- `len(text.encode("utf-8"))` -/
def byteLength (text : List Char) : ℕ := (text.map Char.utf8Size).sum

/-- `validate_intake`, as `create_run` calls it. -/
def validateIntake (MAX_EVIDENCE_FILES : ℕ) (intake : Intake) : Except HTTPException Unit :=
  if intake.named.length > MAX_EVIDENCE_FILES then
    .error ⟨413, s!"企业证据最多 {MAX_EVIDENCE_FILES} 份，请分批处理"⟩
  else if intake.company_name.length > 200 ∨ (intake.evidence_metadata.getD []).length > 32768 then
    .error ⟨422, "企业名称或证据说明过长"⟩
  else if (intake.tender :: intake.named).any fun filename =>
      filename = "" || byteLength filename.toList > 240 ||
        filename.toList.any fun c => c.toNat < 32 then
    .error ⟨422, "文件名为空、过长或包含控制字符"⟩
  else .ok ()

/-- `validate_intake` and `is_supported` accept the form. -/
structure Intake.Accepted (intake : Intake) (MAX_EVIDENCE_FILES : ℕ) : Prop where
  valid : validateIntake MAX_EVIDENCE_FILES intake = .ok ()
  supported : ∀ filename ∈ intake.tender :: intake.named, isSupported filename = true

/-- The names of the uploads with the paths under which `create_run` stores them. -/
def Intake.stored (intake : Intake) (run_dir : List Char) : List (String × String) :=
  (intake.tender, tenderPath run_dir intake.tender) ::
    (intake.named.zipIdx 1).map fun x => (x.1, evidencePath run_dir x.2 x.1)

/-! ## What a stored file should be -/

/-- The file is stored in the directory of the run, under a short name that keeps its type. -/
structure StoredRight (run_dir : List Char) (filename path : String) : Prop where
  child : StoredIn run_dir path
  short : byteLength (Paths.name path.toList) ≤ 255
  suffix_eq : suffix path = suffix filename
  checks : ∀ env, validateUploadContent env path = validateUploadContent env filename

/-- The number of dots before the extension of a name. -/
def dotsBefore (name : List Char) : ℕ :=
  ((name.rdropWhile (· ≠ '.')).rtakeWhile (· = '.')).length

/-- The name keeps its suffix when every `..` is replaced. -/
def KeepsSuffix (filename : String) : Prop := Odd (dotsBefore (Paths.name filename.toList))

/-- The number and the name of every evidence file fit into 245 bytes. -/
def Intake.Fits (intake : Intake) : Prop :=
  ∀ x ∈ intake.named.zipIdx 1, (Paths.pad 3 x.2).length + byteLength (safeFilename x.1) ≤ 245

/-! ## Replacing dots -/

section Dots

variable {a b stem extension : List Char}

theorem replaceDots_append (ha : a.getLast? ≠ some '.') :
    replaceDots (a ++ b) = replaceDots a ++ replaceDots b := by
  fun_induction replaceDots a with
  | case1 cs ih =>
    have hcs : cs.getLast? ≠ some '.' := by
      cases cs with
      | nil => exact absurd rfl ha
      | cons c cs => simpa using ha
    rw [List.cons_append, List.cons_append, replaceDots, ih hcs, List.cons_append]
  | case2 c cs hpair ih =>
    cases cs with
    | nil =>
      have hc : c ≠ '.' := by simpa using ha
      simp [replaceDots, hc]
    | cons d cs =>
      have hne : ∀ cs', c = '.' → d :: (cs ++ b) = '.' :: cs' → False := by
        rintro cs' rfl h
        obtain ⟨rfl, -⟩ := List.cons.inj h
        exact hpair cs rfl rfl
      rw [List.cons_append, List.cons_append, replaceDots, ← List.cons_append,
        ih (by simpa using ha), List.cons_append]
      exact hne
  | case3 => rfl

theorem replaceDots_of_not_mem (h : '.' ∉ a) : replaceDots a = a := by
  fun_induction replaceDots a with
  | case1 cs ih => simp at h
  | case2 c cs hpair ih => rw [ih fun hc => h (List.mem_cons_of_mem c hc)]
  | case3 => rfl

/-- Pairs of dots become underscores. -/
theorem replaceDots_replicate (m : ℕ) (b : List Char) :
    replaceDots (List.replicate (2 * m) '.' ++ b) = List.replicate m '_' ++ replaceDots b := by
  induction m with
  | zero => rfl
  | succ m ih =>
    rw [Nat.mul_succ, List.replicate_succ, List.replicate_succ, List.cons_append, List.cons_append,
      replaceDots, ih, List.replicate_succ, List.cons_append]

theorem replaceDots_dot_cons (h : '.' ∉ extension) :
    replaceDots ('.' :: extension) = '.' :: extension := by
  cases extension with
  | nil => rfl
  | cons c cs =>
    have hne : ∀ cs', c :: cs = '.' :: cs' → False := by
      rintro cs' he
      exact h (he ▸ List.mem_cons_self)
    rw [replaceDots, replaceDots_of_not_mem h]
    exact fun cs' _ => hne cs'

/-- A name with an extension consists of a part that does not end with a dot, the dots before the
extension, and the extension. -/
theorem exists_front {name : List Char} (h : name = stem ++ '.' :: extension)
    (he : '.' ∉ extension) : ∃ front, front.getLast? ≠ some '.' ∧ dotsBefore name ≠ 0 ∧
      name = front ++ (List.replicate (dotsBefore name) '.' ++ extension) := by
  have hkeep : ∀ c ∈ extension.reverse, decide (c ≠ '.') = true := by
    intro c hc
    rw [decide_eq_true_iff]
    rintro rfl
    exact he (List.mem_reverse.1 hc)
  have hdrop : name.rdropWhile (· ≠ '.') = stem ++ ['.'] := by
    rw [List.rdropWhile, h, List.reverse_append, List.reverse_cons, List.append_assoc,
      List.dropWhile_append_of_pos hkeep]
    simp
  have hdots : (stem ++ ['.']).rtakeWhile (· = '.') = List.replicate (dotsBefore name) '.' := by
    rw [List.eq_replicate_iff, dotsBefore, hdrop]
    exact ⟨rfl, fun c hc => of_decide_eq_true
      (List.mem_rtakeWhile_imp (p := fun c => decide (c = '.')) hc)⟩
  refine ⟨(stem ++ ['.']).rdropWhile (· = '.'), ?_, ?_, ?_⟩
  · intro hlast
    obtain ⟨l, hl⟩ := List.getLast?_eq_some_iff.1 hlast
    have hne : (stem ++ ['.']).rdropWhile (· = '.') ≠ [] := by simp [hl]
    have hnot := List.rdropWhile_last_not _ _ hne
    simp [hl] at hnot
  · rw [dotsBefore, hdrop, List.rtakeWhile_concat_pos _ _ _ (by simp)]
    simp
  · rw [← hdots, ← List.append_assoc, List.rdropWhile_append_rtakeWhile, h, List.append_assoc]
    rfl

end Dots

/-! ## Suffixes -/

theorem exists_stem_of_suffix_ne_nil {path : List Char} (h : Paths.suffix path ≠ []) :
    ∃ stem extension, Paths.name path = stem ++ '.' :: extension ∧ '.' ∉ extension ∧
      Paths.suffix path = '.' :: extension := by
  have hmem : '.' ∈ (Paths.name path).reverse := by
    by_contra hmem
    exact h (Paths.suffix_of_not_mem fun hc => hmem (List.mem_reverse.2 hc))
  obtain ⟨back, front, hsplit, hback⟩ := List.eq_append_cons_of_mem hmem
  have hname : Paths.name path = front.reverse ++ '.' :: back.reverse := by
    rw [← List.reverse_reverse (Paths.name path), hsplit]
    simp
  have hext : '.' ∉ back.reverse := fun hc => hback (List.mem_reverse.1 hc)
  refine ⟨_, _, hname, hext, ?_⟩
  have hsuffix := Paths.suffix_of_name_eq hname hext
  split_ifs at hsuffix
  · exact absurd hsuffix h
  · exact hsuffix

theorem lower_append (a b : List Char) : Text.lower (a ++ b) = Text.lower a ++ Text.lower b :=
  List.flatMap_append

/-- A suffix that ends with another one behind a character other than a dot is longer. -/
theorem lower_suffix_ne {path q extension : List Char}
    (h : Paths.name path = q ++ '_' :: extension) (he : '.' ∉ extension) :
    Text.lower (Paths.suffix path) ≠ Text.lower ('.' :: extension) := by
  have hdot : Text.lower ('.' :: extension) = '.' :: Text.lower extension := rfl
  intro heq
  have hlength := congrArg List.length heq
  rw [hdot, List.length_cons] at hlength
  by_cases hq : '.' ∈ q.reverse
  · obtain ⟨back, front, hsplit, hback⟩ := List.eq_append_cons_of_mem hq
    have hq : q = front.reverse ++ '.' :: back.reverse := by
      rw [← List.reverse_reverse q, hsplit]
      simp
    have hname : Paths.name path = front.reverse ++ '.' :: (back.reverse ++ '_' :: extension) := by
      rw [h, hq, List.append_assoc, List.cons_append]
    have hext : '.' ∉ back.reverse ++ '_' :: extension := by
      simpa using ⟨hback, he⟩
    rw [Paths.suffix_of_name_eq hname hext] at hlength
    split_ifs at hlength
    · simp [Text.lower] at hlength
    · have hcons : Text.lower ('.' :: (back.reverse ++ '_' :: extension)) =
          '.' :: (Text.lower back.reverse ++ '_' :: Text.lower extension) := by
        rw [← List.singleton_append, lower_append, lower_append]
        rfl
      rw [hcons] at hlength
      simp only [List.length_cons, List.length_append] at hlength
      omega
  · rw [Paths.suffix_of_not_mem] at hlength
    · simp [Text.lower] at hlength
    · rw [h]
      simpa using ⟨fun hc => hq (List.mem_reverse.2 hc), he⟩

theorem suffix_eq_iff {a b : String} : suffix a = suffix b ↔
    Text.lower (Paths.suffix a.toList) = Text.lower (Paths.suffix b.toList) :=
  String.ofList_inj

/-- With something in front, the stored name has the suffix of the accepted one if and only if that
survives the replacement of dots. -/
theorem suffix_stored_iff (run_dir : List Char) {front : List Char} {filename : String}
    (hfront : 2 ≤ front.length) (hslash : '/' ∉ front ++ safeFilename filename)
    (hsuffix : Paths.suffix filename.toList ≠ []) :
    suffix (String.ofList (Paths.join run_dir (front ++ safeFilename filename))) =
        suffix filename ↔ KeepsSuffix filename := by
  obtain ⟨stem, extension, hname, he, hs⟩ := exists_stem_of_suffix_ne_nil hsuffix
  obtain ⟨first, hlast, hdots, hparts⟩ := exists_front hname he
  have hstored : Paths.name (Paths.join run_dir (front ++ safeFilename filename)) =
      front ++ safeFilename filename := by
    have hlength : 2 ≤ (front ++ safeFilename filename).length := by
      rw [List.length_append]
      omega
    refine Paths.name_join hslash ?_ ?_ <;> intro h <;> rw [h] at hlength <;> simp at hlength
  have hne : extension ≠ [] := by
    rintro rfl
    have := Paths.suffix_of_name_eq hname he
    rw [if_pos (.inr rfl)] at this
    exact hsuffix this
  rw [suffix_eq_iff, String.toList_ofList, hs, KeepsSuffix]
  have hsafe : safeFilename filename = replaceDots first ++
      replaceDots (List.replicate (dotsBefore (Paths.name filename.toList)) '.' ++ extension) := by
    rw [safeFilename, hparts, replaceDots_append hlast, ← hparts]
  generalize dotsBefore (Paths.name filename.toList) = k at hdots hsafe
  rcases Nat.even_or_odd' k with ⟨m, rfl | rfl⟩
  · -- every dot is paired, and the last pair is joined to the extension
    obtain ⟨m, rfl⟩ := Nat.exists_eq_succ_of_ne_zero (n := m) (by omega)
    rw [replaceDots_replicate, replaceDots_of_not_mem he, List.replicate_succ'] at hsafe
    have hname' : Paths.name (Paths.join run_dir (front ++ safeFilename filename)) =
        (front ++ (replaceDots first ++ List.replicate m '_')) ++ '_' :: extension := by
      rw [hstored, hsafe]
      simp only [List.append_assoc, List.singleton_append]
    exact iff_of_false (lower_suffix_ne hname' he) (by simp)
  · rw [List.replicate_succ', List.append_assoc, replaceDots_replicate, List.singleton_append,
      replaceDots_dot_cons he] at hsafe
    refine iff_of_true ?_ (by simp)
    have hname' : Paths.name (Paths.join run_dir (front ++ safeFilename filename)) =
        (front ++ (replaceDots first ++ List.replicate m '_')) ++ '.' :: extension := by
      rw [hstored, hsafe, List.append_assoc, List.append_assoc]
    rw [Paths.suffix_of_name_eq hname' he, if_neg]
    rintro (h | h)
    · rw [List.append_eq_nil_iff] at h
      rw [h.1] at hfront
      simp at hfront
    · exact hne h

/-! ## Lengths -/

theorem byteLength_append (a b : List Char) :
    byteLength (a ++ b) = byteLength a + byteLength b := by
  rw [byteLength, List.map_append, List.sum_append]
  rfl

theorem byteLength_mono {a b : List Char} (h : a <:+: b) : byteLength a ≤ byteLength b := by
  obtain ⟨before, after, rfl⟩ := h
  rw [byteLength_append, byteLength_append]
  omega

theorem byteLength_replaceDots_le (a : List Char) : byteLength (replaceDots a) ≤ byteLength a := by
  have hcons : ∀ c cs, byteLength (c :: cs) = c.utf8Size + byteLength cs := fun _ _ => rfl
  fun_induction replaceDots a with
  | case1 cs ih =>
    have hunderscore : '_'.utf8Size = 1 := by decide
    have hdot : '.'.utf8Size = 1 := by decide
    rw [hcons, hcons, hcons, hunderscore, hdot]
    omega
  | case2 c cs _ ih =>
    rw [hcons, hcons]
    omega
  | case3 => exact le_rfl

theorem byteLength_safeFilename_le (filename : String) :
    byteLength (safeFilename filename) ≤ byteLength filename.toList :=
  (byteLength_replaceDots_le _).trans (byteLength_mono (Paths.name_infix _))

/-- A digit is one byte. -/
theorem byteLength_pad (width n : ℕ) :
    byteLength (Paths.pad width n) = (Paths.pad width n).length := by
  have hsize : ∀ c ∈ Paths.pad width n, c.utf8Size = 1 := by
    intro c hc
    have hdigit := Paths.isDigit_of_mem_pad hc
    simp only [Char.isDigit, Bool.and_eq_true, decide_eq_true_eq] at hdigit
    rw [Char.utf8Size_eq_one_iff]
    exact UInt32.le_trans hdigit.2 (by decide)
  rw [byteLength, List.map_congr_left hsize, List.map_const', List.sum_replicate_nat, Nat.mul_one]

/-! ## The stored files -/

section Stored

variable {intake : Intake} {MAX_EVIDENCE_FILES : ℕ} {run_dir : List Char}

theorem Intake.Accepted.byteLength_le (h : intake.Accepted MAX_EVIDENCE_FILES) {filename : String}
    (hf : filename ∈ intake.tender :: intake.named) : byteLength filename.toList ≤ 240 := by
  have hvalid := h.valid
  unfold validateIntake at hvalid
  split_ifs at hvalid with hcount hlong hnames
  by_contra hle
  refine hnames (List.any_eq_true.2 ⟨filename, hf, ?_⟩)
  simp only [Bool.or_eq_true, decide_eq_true_eq]
  exact .inl (.inr (by omega))

theorem Intake.Accepted.suffix_ne_nil (h : intake.Accepted MAX_EVIDENCE_FILES) {filename : String}
    (hf : filename ∈ intake.tender :: intake.named) : Paths.suffix filename.toList ≠ [] := by
  intro hnil
  have hsupported := h.supported filename hf
  rw [isSupported, suffix, hnil] at hsupported
  exact absurd hsupported (by decide)

/-- The paths of the stored files are different. -/
theorem nodup_stored (intake : Intake) (run_dir : List Char) :
    ((intake.stored run_dir).map Prod.snd).Nodup := by
  rw [Intake.stored, List.map_cons, List.map_map, List.nodup_cons]
  constructor
  · intro hmem
    obtain ⟨x, -, hx⟩ := List.mem_map.1 hmem
    exact tenderPath_ne_evidencePath run_dir x.2 intake.tender x.1 hx.symm
  · have hnumbers : ((intake.named.zipIdx 1).map Prod.snd).Nodup := by
      rw [List.zipIdx_map_snd]
      exact List.nodup_range'
    refine List.pairwise_map.2 ((List.pairwise_map.1 hnumbers).imp fun hne h => ?_)
    exact hne (evidencePath_inj h)

/-- A stored file with something in front of its name. -/
theorem storedRight_iff {front : List Char} {filename : String} (hfront : 2 ≤ front.length)
    (hslash : '/' ∉ front ++ safeFilename filename)
    (hsuffix : Paths.suffix filename.toList ≠ []) :
    StoredRight run_dir filename
        (String.ofList (Paths.join run_dir (front ++ safeFilename filename))) ↔
      KeepsSuffix filename ∧ byteLength front + byteLength (safeFilename filename) ≤ 255 := by
  have hkeeps := suffix_stored_iff run_dir hfront hslash hsuffix
  have hname : Paths.name
      (String.ofList (Paths.join run_dir (front ++ safeFilename filename))).toList =
        front ++ safeFilename filename := by
    have hlength : 2 ≤ (front ++ safeFilename filename).length := by
      rw [List.length_append]
      omega
    rw [String.toList_ofList]
    refine Paths.name_join hslash ?_ ?_ <;> intro h <;> rw [h] at hlength <;> simp at hlength
  constructor
  · intro h
    have hshort := h.short
    rw [hname, byteLength_append] at hshort
    exact ⟨hkeeps.1 h.suffix_eq, hshort⟩
  · rintro ⟨hodd, hshort⟩
    have hsuffix := hkeeps.2 hodd
    refine ⟨storedIn_join hslash, ?_, hsuffix, fun env => validateUploadContent_congr hsuffix⟩
    rw [hname, byteLength_append]
    exact hshort

/-- For every accepted form, the files are stored in the directory of the run under different names
that are short and keep their types if and only if an odd number of dots stands before the extension
of each name and the numbered names fit. -/
theorem stored_right_iff (h : intake.Accepted MAX_EVIDENCE_FILES) (run_dir : List Char) :
    (((intake.stored run_dir).map Prod.snd).Nodup ∧
      ∀ x ∈ intake.stored run_dir, StoredRight run_dir x.1 x.2) ↔
    (∀ filename ∈ intake.tender :: intake.named, KeepsSuffix filename) ∧ intake.Fits := by
  have htender : StoredRight run_dir intake.tender (tenderPath run_dir intake.tender) ↔
      KeepsSuffix intake.tender := by
    have hlength := (byteLength_safeFilename_le _).trans (h.byteLength_le List.mem_cons_self)
    have hfront : byteLength "tender-".toList = 7 := by decide
    rw [tenderPath, storedRight_iff (by decide) (slash_not_mem_tenderName _)
      (h.suffix_ne_nil List.mem_cons_self), hfront]
    exact and_iff_left (by omega)
  have hevidence : ∀ x ∈ intake.named.zipIdx 1,
      StoredRight run_dir x.1 (evidencePath run_dir x.2 x.1) ↔ KeepsSuffix x.1 ∧
        (Paths.pad 3 x.2).length + byteLength (safeFilename x.1) ≤ 245 := by
    intro x hx
    have hsplit : "evidence-".toList ++ (Paths.pad 3 x.2 ++ '-' :: safeFilename x.1) =
        ("evidence-".toList ++ Paths.pad 3 x.2 ++ ['-']) ++ safeFilename x.1 := by simp
    have hfront : byteLength ("evidence-".toList ++ Paths.pad 3 x.2 ++ ['-']) =
        10 + (Paths.pad 3 x.2).length := by
      have hword : byteLength "evidence-".toList = 9 := by decide
      have hdash : byteLength ['-'] = 1 := by decide
      rw [byteLength_append, byteLength_append, byteLength_pad, hword, hdash]
      omega
    rw [evidencePath, hsplit, storedRight_iff _ (hsplit ▸ slash_not_mem_evidenceName _ _)
      (h.suffix_ne_nil (List.mem_cons_of_mem _ (List.fst_mem_of_mem_zipIdx hx))), hfront]
    · refine and_congr_right fun _ => ?_
      omega
    · simp
  rw [and_iff_right (nodup_stored intake run_dir)]
  simp only [Intake.stored, List.forall_mem_cons, List.forall_mem_map, htender, Intake.Fits]
  constructor
  · rintro ⟨ht, he⟩
    refine ⟨⟨ht, fun filename hf => ?_⟩, fun x hx => ((hevidence x hx).1 (he x hx)).2⟩
    rw [← List.zipIdx_map_fst 1 intake.named] at hf
    obtain ⟨x, hx, rfl⟩ := List.mem_map.1 hf
    exact ((hevidence x hx).1 (he x hx)).1
  · rintro ⟨⟨ht, hk⟩, hfits⟩
    exact ⟨ht, fun x hx =>
      (hevidence x hx).2 ⟨hk x.1 (List.fst_mem_of_mem_zipIdx hx), hfits x hx⟩⟩

end Stored

/-! ## A name that loses its suffix -/

/-- The second file has two dots before its extension. -/
def dottedIntake : Intake where
  tender := "tender.pdf"
  evidence := ["licence..pdf"]

theorem accepted_dottedIntake : dottedIntake.Accepted 20 := ⟨by decide +kernel, by decide +kernel⟩

theorem stored_right_sample :
    (((dottedIntake.stored "/uploads/1".toList).map Prod.snd).Nodup ∧
      ∀ x ∈ dottedIntake.stored "/uploads/1".toList, StoredRight "/uploads/1".toList x.1 x.2) ↔
    (∀ filename ∈ dottedIntake.tender :: dottedIntake.named, KeepsSuffix filename) ∧
      dottedIntake.Fits :=
  stored_right_iff accepted_dottedIntake "/uploads/1".toList

/-- A store that reads a file at once. -/
def plainContent : ContentEnv where
  reads content := [content]
  page_count _ := some 1
  scanOoxml _ := []

/-- The file is accepted as a PDF, stored without a suffix, and its active content passes. -/
theorem dotted_name_unchecked :
    dottedIntake.Accepted 20 ∧
      ("licence..pdf", "/uploads/1/evidence-001-licence_pdf") ∈
        dottedIntake.stored "/uploads/1".toList ∧
      validateUploadContent plainContent "/uploads/1/evidence-001-licence_pdf"
        (bytes "%PDF /JavaScript") = .ok () ∧
      validateUploadContent plainContent "licence..pdf" (bytes "%PDF /JavaScript") ≠ .ok () ∧
      ¬StoredRight "/uploads/1".toList "licence..pdf" "/uploads/1/evidence-001-licence_pdf" := by
  refine ⟨accepted_dottedIntake, by decide +kernel, by decide +kernel, by decide +kernel, ?_⟩
  intro h
  exact absurd h.suffix_eq (by decide +kernel)

end BidProof
