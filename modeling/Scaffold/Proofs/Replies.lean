import Scaffold.Proofs.Text.Lines

/-!
# Blocks in replies

A reply is read line by line. Outside of blocks a line is prose unless it opens a block; inside a
block a line belongs to the file unless it closes the block, whatever else it looks like.

* `Reads lines files`: the lines are prose and closed blocks, which hold the files.
* `Breaks lines message`: the first line opens a block that leads out of the project or that is
  never closed. Lines that are read up to such a fence are `Refused`, as are lines without blocks.
* `reads_or_breaks`: lines are read to their end or up to an opening fence that breaks.
* `files_eq_ok_iff`, `files_eq_error_iff`: the answers of the reader.
* `files_encode`: a reply that is written from files is read as these files.
-/

namespace Scaffold.Reply

variable {front rest body texts : List String} {line path message reply : String}
  {file : GeneratedFile} {files found : List GeneratedFile}

/-! ## What is read -/

/-- Lines outside of blocks that are read to their end, and the files in them. -/
inductive Reads : List String → List GeneratedFile → Prop
  | nil : Reads [] []
  | prose {line : String} {rest : List String} {files : List GeneratedFile}
    (hline : opening? line = none) (hrest : Reads rest files) : Reads (line :: rest) files
  | block {opening path closing : String} {body rest : List String} {files : List GeneratedFile}
    (hopening : opening? opening = some path) (hpath : (Path.mk path).isContained = true)
    (hbody : ∀ line ∈ body, isClosing line = false) (hclosing : isClosing closing = true)
    (hrest : Reads rest files) :
    Reads (opening :: (body ++ closing :: rest)) (⟨path, Text.unlines body⟩ :: files)

/-- Lines that start with an opening fence and are refused because of it. -/
inductive Breaks : List String → String → Prop
  | outside {opening path : String} {rest : List String} (hopening : opening? opening = some path)
    (hpath : (Path.mk path).isContained = false) :
    Breaks (opening :: rest) s!"unsafe file path '{path}'"
  | unterminated {opening path : String} {body : List String}
    (hopening : opening? opening = some path) (hpath : (Path.mk path).isContained = true)
    (hbody : ∀ line ∈ body, isClosing line = false) :
    Breaks (opening :: body) s!"unterminated block for {path}"

/-- Lines that are refused: a fence outside of blocks breaks, or there is no block. -/
inductive Refused : List String → String → Prop
  | breaks {front rest : List String} {files : List GeneratedFile} {message : String}
    (hfront : Reads front files) (hrest : Breaks rest message) : Refused (front ++ rest) message
  | empty {texts : List String} (h : Reads texts []) :
    Refused texts "reply contains no file blocks"

/-! ## The reader -/

theorem blocks_none_cons (line : String) (rest : List String) : blocks none (line :: rest) =
    match opening? line with
    | none => blocks none rest
    | some path =>
      if (Path.mk path).isContained then blocks (some ⟨path, ""⟩) rest
      else .error (.malformed s!"unsafe file path '{path}'") :=
  rfl

theorem blocks_some_cons (file : GeneratedFile) (line : String) (rest : List String) :
    blocks (some file) (line :: rest) =
      if isClosing line then (blocks none rest).map (file :: ·)
      else blocks (some { file with contents := file.contents ++ line ++ "\n" }) rest :=
  rfl

theorem blocks_prose (hline : opening? line = none) (rest : List String) :
    blocks none (line :: rest) = blocks none rest := by
  rw [blocks_none_cons, hline]

theorem blocks_opening (hline : opening? line = some path)
    (hpath : (Path.mk path).isContained = true) (rest : List String) :
    blocks none (line :: rest) = blocks (some ⟨path, ""⟩) rest := by
  rw [blocks_none_cons, hline]
  exact if_pos hpath

/-- Lines that do not close a block belong to its file. -/
theorem blocks_body (hbody : ∀ line ∈ body, isClosing line = false) (file : GeneratedFile)
    (rest : List String) : blocks (some file) (body ++ rest) =
      blocks (some { file with contents := file.contents ++ Text.unlines body }) rest := by
  induction body generalizing file with
  | nil =>
    rw [List.nil_append, Text.unlines, List.map_nil, String.join_nil, String.append_empty]
  | cons line body ih =>
    obtain ⟨hline, hbody⟩ := List.forall_mem_cons.1 hbody
    rw [List.cons_append, blocks_some_cons, if_neg (by simp [hline]), ih hbody, Text.unlines_cons]
    simp only [String.append_assoc]

/-- A block up to its closing fence. -/
theorem blocks_block {closing : String} (hopening : opening? line = some path)
    (hpath : (Path.mk path).isContained = true) (hbody : ∀ line ∈ body, isClosing line = false)
    (hclosing : isClosing closing = true) (rest : List String) :
    blocks none (line :: (body ++ closing :: rest)) =
      (blocks none rest).map (⟨path, Text.unlines body⟩ :: ·) := by
  rw [blocks_opening hopening hpath, blocks_body hbody, blocks_some_cons, if_pos hclosing]
  dsimp only
  rw [String.empty_append]

/-- Lines that are read give their files, whatever follows. -/
theorem Reads.blocks_append (h : Reads front files) (rest : List String) :
    blocks none (front ++ rest) = (blocks none rest).map (files ++ ·) := by
  induction h with
  | nil => cases h : blocks none rest <;> simp [h, Except.map]
  | prose hline _ ih => rw [List.cons_append, blocks_prose hline, ih]
  | block hopening hpath hbody hclosing _ ih =>
    rw [List.cons_append, List.append_assoc, List.cons_append,
      blocks_block hopening hpath hbody hclosing, ih]
    cases blocks none rest <;> rfl

theorem Reads.blocks_eq (h : Reads texts files) : blocks none texts = .ok files := by
  have hread := h.blocks_append []
  rw [List.append_nil] at hread
  rw [hread]
  exact congrArg Except.ok (List.append_nil files)

theorem Breaks.blocks_eq (h : Breaks texts message) :
    blocks none texts = .error (.malformed message) := by
  cases h with
  | outside hopening hpath =>
    rw [blocks_none_cons, hopening]
    exact if_neg (by simp [hpath])
  | @unterminated opening path body hopening hpath hbody =>
    have hread := blocks_body hbody ⟨path, ""⟩ []
    rw [List.append_nil] at hread
    rw [blocks_opening hopening hpath, hread]
    rfl

/-- A block is open to the end, or there is a first line that closes it. -/
theorem closes_or (texts : List String) : (∀ line ∈ texts, isClosing line = false) ∨
    ∃ body closing rest, texts = body ++ closing :: rest ∧
      (∀ line ∈ body, isClosing line = false) ∧ isClosing closing = true := by
  induction texts with
  | nil => exact .inl (by simp)
  | cons line texts ih =>
    cases hline : isClosing line with
    | true => exact .inr ⟨[], line, texts, rfl, by simp, hline⟩
    | false =>
      obtain hopen | ⟨body, closing, rest, rfl, hbody, hclosing⟩ := ih
      · exact .inl (List.forall_mem_cons.2 ⟨hline, hopen⟩)
      · have hopen : ∀ l ∈ line :: body, isClosing l = false :=
          List.forall_mem_cons.2 ⟨hline, hbody⟩
        exact .inr ⟨line :: body, closing, rest, rfl, hopen, hclosing⟩

/-- Lines are read to their end or up to an opening fence that breaks. -/
theorem reads_or_breaks (texts : List String) : ∃ front files rest, texts = front ++ rest ∧
    Reads front files ∧ (rest = [] ∨ ∃ message, Breaks rest message) := by
  -- A block takes many lines at once, so the induction is on how many are left.
  induction hlength : texts.length using Nat.strong_induction_on generalizing texts with
  | _ n ih =>
    subst hlength
    cases texts with
    | nil => exact ⟨[], [], [], rfl, .nil, .inl rfl⟩
    | cons line more =>
      cases hline : opening? line with
      | none =>
        obtain ⟨front, files, rest, rfl, hfront, hrest⟩ := ih _ (by simp) more rfl
        exact ⟨line :: front, files, rest, rfl, .prose hline hfront, hrest⟩
      | some path =>
        cases hpath : (Path.mk path).isContained with
        | false => exact ⟨[], [], line :: more, rfl, .nil, .inr ⟨_, .outside hline hpath⟩⟩
        | true =>
          obtain hopen | ⟨body, closing, more, rfl, hbody, hclosing⟩ := closes_or more
          · exact ⟨[], [], line :: more, rfl, .nil, .inr ⟨_, .unterminated hline hpath hopen⟩⟩
          · obtain ⟨front, files, rest, rfl, hfront, hrest⟩ := ih _ (by simp; omega) more rfl
            exact ⟨line :: (body ++ closing :: front), _, rest, by simp,
              .block hline hpath hbody hclosing hfront, hrest⟩

theorem files_of_reads (h : Reads (Text.lines reply) files) (hne : files ≠ []) :
    Reply.files reply = .ok files := by
  rw [Reply.files, h.blocks_eq]
  cases files with
  | nil => exact absurd rfl hne
  | cons file files => rfl

theorem files_of_refused (h : Refused (Text.lines reply) message) :
    Reply.files reply = .error (.malformed message) := by
  rw [Reply.files]
  generalize Text.lines reply = texts at h ⊢
  cases h with
  | breaks hfront hrest =>
    rw [hfront.blocks_append, hrest.blocks_eq]
    rfl
  | empty h =>
    rw [h.blocks_eq]
    rfl

/-- Lines are read or refused. -/
theorem reads_or_refused (texts : List String) :
    (∃ files, files ≠ [] ∧ Reads texts files) ∨ ∃ message, Refused texts message := by
  obtain ⟨front, files, rest, rfl, hfront, rfl | ⟨message, hrest⟩⟩ := reads_or_breaks texts
  · rw [List.append_nil]
    by_cases hne : files = []
    · subst hne
      exact .inr ⟨_, .empty hfront⟩
    · exact .inl ⟨files, hne, hfront⟩
  · exact .inr ⟨message, .breaks hfront hrest⟩

/-- The files of a reply are the ones in its blocks, of which there is at least one. -/
theorem files_eq_ok_iff :
    Reply.files reply = .ok found ↔ found ≠ [] ∧ Reads (Text.lines reply) found := by
  refine ⟨fun h => ?_, fun ⟨hne, h⟩ => files_of_reads h hne⟩
  obtain ⟨files, hne, hreads⟩ | ⟨message, hrefused⟩ := reads_or_refused (Text.lines reply)
  · cases h.symm.trans (files_of_reads hreads hne)
    exact ⟨hne, hreads⟩
  · cases h.symm.trans (files_of_refused hrefused)

theorem files_eq_error_iff {e : ServiceError} : Reply.files reply = .error e ↔
    ∃ message, e = .malformed message ∧ Refused (Text.lines reply) message := by
  constructor
  · intro h
    obtain ⟨files, hne, hreads⟩ | ⟨message, hrefused⟩ := reads_or_refused (Text.lines reply)
    · cases h.symm.trans (files_of_reads hreads hne)
    · cases h.symm.trans (files_of_refused hrefused)
      exact ⟨message, rfl, hrefused⟩
  · rintro ⟨message, rfl, h⟩
    exact files_of_refused h

/-- The files that are read lead nowhere out of the project, and their contents are whole lines. -/
theorem Reads.files_formed (h : Reads texts files) : ∀ f ∈ files, f.isContained = true ∧
    (f.contents = "" ∨ ∃ text, f.contents = text ++ "\n") := by
  induction h with
  | nil => simp
  | prose _ _ ih => exact ih
  | @block _ path _ body _ _ _ hpath _ _ _ ih =>
    exact List.forall_mem_cons.2 ⟨⟨hpath, Text.unlines_eq_empty_or body⟩, ih⟩

/-! ## Replies that are written -/

/-- A line between blocks. -/
structure IsProse (line : String) : Prop where
  oneLine : '\n' ∉ line.toList
  noFence : opening? line = none

/-- A line of a file that a block can hold. -/
structure IsContent (line : String) : Prop where
  oneLine : '\n' ∉ line.toList
  noReturn : line.toList.getLast? ≠ some '\r'
  notClosing : isClosing line = false

/-- A file that a block can hold. -/
structure IsBlock (f : GeneratedFile) : Prop where
  contained : f.isContained = true
  trimmed : Text.trim f.path = f.path
  oneLine : '\n' ∉ f.path.toList
  contents : ∃ body, f.contents = Text.unlines body ∧ ∀ line ∈ body, IsContent line

def blockText (f : GeneratedFile) : String :=
  fence ++ f.path ++ "\n" ++ f.contents ++ "```\n"

/-- Blocks with lines of prose in front of the first one and behind each of them. -/
def encode (prose : List String) (blocks : List (GeneratedFile × List String)) : String :=
  Text.unlines prose ++
    String.join (blocks.map fun (f, prose) => blockText f ++ Text.unlines prose)

theorem opening?_eq_none : opening? line = none ↔
    ¬fence.toList <+: line.toList.dropWhile Text.isBlank := by
  have hsome : ∀ rest, Text.afterHeadChars fence.toList (line.toList.dropWhile Text.isBlank) =
      some rest ↔ fence.toList ++ rest = line.toList.dropWhile Text.isBlank := fun rest =>
    Text.afterHeadChars_eq_some.trans eq_comm
  rw [opening?, Option.map_eq_none_iff, Option.eq_none_iff_forall_ne_some]
  simp only [ne_eq, hsome, List.IsPrefix, not_exists]

/-- A carriage return at the end makes no fence. -/
theorem opening?_withoutReturn (h : opening? line = none) :
    opening? (Text.withoutReturn line) = none := by
  rw [opening?_eq_none] at h ⊢
  rw [Text.withoutReturn, String.toList_ofList]
  obtain heq | heq := Text.dropReturn_eq_or line.toList
  · rwa [heq]
  · rw [heq, List.dropWhile_append] at h
    split at h
    · rename_i hblank
      rw [List.isEmpty_iff.1 hblank]
      decide
    · exact fun hhere => h (hhere.trans (List.prefix_append _ _))

theorem reads_prose_append (hprose : ∀ line ∈ texts, opening? line = none)
    (h : Reads rest files) : Reads (texts ++ rest) files := by
  induction texts with
  | nil => exact h
  | cons line texts ih =>
    obtain ⟨hline, htexts⟩ := List.forall_mem_cons.1 hprose
    exact .prose hline (ih htexts)

/-- Prose is passed over. -/
theorem reads_unlines_append (hprose : ∀ line ∈ texts, IsProse line)
    (h : Reads (Text.lines reply) files) :
    Reads (Text.lines (Text.unlines texts ++ reply)) files := by
  rw [Text.lines_unlines_append fun line hline => (hprose line hline).oneLine]
  refine reads_prose_append (fun line hline => ?_) h
  obtain ⟨written, hwritten, rfl⟩ := List.mem_map.1 hline
  exact opening?_withoutReturn (hprose written hwritten).noFence

/-- A fence with a trimmed path opens a block for this path. -/
theorem opening?_fence (htrim : Text.trim path = path) : opening? (fence ++ path) = some path := by
  have hdrop : (fence ++ path).toList.dropWhile Text.isBlank = fence.toList ++ path.toList := by
    rw [String.toList_append]
    exact List.dropWhile_cons_of_neg (by decide)
  rw [opening?, hdrop, Text.afterHeadChars_eq_some.2 rfl]
  exact congrArg some htrim

/-- The last character of a trimmed path is no carriage return. -/
theorem withoutReturn_fence (htrim : Text.trim path = path) :
    Text.withoutReturn (fence ++ path) = fence ++ path := by
  refine Text.withoutReturn_eq_self fun hlast => ?_
  rw [String.toList_append] at hlast
  by_cases hpath : path.toList = []
  · rw [hpath, List.append_nil] at hlast
    exact absurd hlast (by decide)
  · rw [List.getLast?_append_of_ne_nil _ hpath] at hlast
    have hend := (Text.trimChars_eq_self_iff.1 (Text.trim_eq_self_iff.1 htrim)).2 '\r' hlast
    exact absurd hend (by decide)

/-- A block is read as its file. -/
theorem reads_blockText_append (hfile : IsBlock file) (h : Reads (Text.lines reply) files) :
    Reads (Text.lines (blockText file ++ reply)) (file :: files) := by
  obtain ⟨path, contents⟩ := file
  obtain ⟨body, hcontents, hbody⟩ := hfile.contents
  obtain rfl : contents = Text.unlines body := hcontents
  have hfence : '\n' ∉ (fence ++ path).toList := by
    rw [String.toList_append, List.mem_append, not_or]
    exact ⟨by decide, hfile.oneLine⟩
  have hkept : body.map Text.withoutReturn = body :=
    (List.map_congr_left fun line hline =>
      Text.withoutReturn_eq_self (hbody line hline).noReturn).trans (List.map_id body)
  have htext : blockText ⟨path, Text.unlines body⟩ ++ reply =
      (fence ++ path) ++ "\n" ++ (Text.unlines body ++ ("```" ++ "\n" ++ reply)) := by
    simp only [blockText, String.append_assoc]
    rfl
  rw [htext, Text.lines_cons hfence, withoutReturn_fence hfile.trimmed,
    Text.lines_unlines_append fun line hline => (hbody line hline).oneLine, hkept,
    Text.lines_cons (by decide)]
  exact .block (opening?_fence hfile.trimmed) hfile.contained
    (fun line hline => (hbody line hline).notClosing) (by decide) h

theorem reads_encode {prose : List String} {blocks : List (GeneratedFile × List String)}
    (hprose : ∀ line ∈ prose, IsProse line)
    (hblocks : ∀ b ∈ blocks, IsBlock b.1 ∧ ∀ line ∈ b.2, IsProse line) :
    Reads (Text.lines (encode prose blocks)) (blocks.map Prod.fst) := by
  refine reads_unlines_append hprose ?_
  induction blocks with
  | nil => exact .nil
  | cons b blocks ih =>
    obtain ⟨⟨hfile, hbehind⟩, hblocks⟩ := List.forall_mem_cons.1 hblocks
    rw [List.map_cons, String.join_cons, String.append_assoc]
    exact reads_blockText_append hfile (reads_unlines_append hbehind (ih hblocks))

/-- A reply that is written from files is read as these files, in their order; what is read are one
or more files with contained paths and whole lines; and a reply is refused exactly if a fence
outside of blocks leads out of the project or is never closed, or if there is no block. -/
theorem files_encode :
    (∀ prose blocks, blocks ≠ [] → (∀ line ∈ prose, IsProse line) →
      (∀ b ∈ blocks, IsBlock b.1 ∧ ∀ line ∈ b.2, IsProse line) →
        Reply.files (encode prose blocks) = .ok (blocks.map Prod.fst)) ∧
    (∀ reply found, Reply.files reply = .ok found → found ≠ [] ∧ ∀ f ∈ found,
      f.isContained = true ∧ (f.contents = "" ∨ ∃ text, f.contents = text ++ "\n")) ∧
    ∀ reply e, Reply.files reply = .error e ↔
      ∃ message, e = .malformed message ∧ Refused (Text.lines reply) message := by
  refine ⟨fun prose blocks hne hprose hblocks => ?_, fun reply found h => ?_,
    fun _ _ => files_eq_error_iff⟩
  · exact files_of_reads (reads_encode hprose hblocks) (mt List.map_eq_nil_iff.1 hne)
  · obtain ⟨hne, hreads⟩ := files_eq_ok_iff.1 h
    exact ⟨hne, hreads.files_formed⟩

theorem files_encode_fences :
    Reply.files (encode ["Two files:\r", "```"]
        [(⟨"src/./a b.txt", "```file:../x\n  ```\n\n"⟩, ["and ```file:/y"]), (⟨"b", ""⟩, [])]) =
      .ok [⟨"src/./a b.txt", "```file:../x\n  ```\n\n"⟩, ⟨"b", ""⟩] := by
  have hprose : ∀ line ∈ ["Two files:\r", "```"], IsProse line := by
    simp only [List.forall_mem_cons]
    exact ⟨⟨by decide, by decide⟩, ⟨by decide, by decide⟩, by simp⟩
  have hbehind : ∀ line ∈ ["and ```file:/y"], IsProse line := by
    simp only [List.forall_mem_cons]
    exact ⟨⟨by decide, by decide⟩, by simp⟩
  have hbody : ∀ line ∈ ["```file:../x", "  ```", ""], IsContent line := by
    simp only [List.forall_mem_cons]
    exact ⟨⟨by decide, by decide, by decide⟩, ⟨by decide, by decide, by decide⟩,
      ⟨by decide, by decide, by decide⟩, by simp⟩
  have hfirst : IsBlock ⟨"src/./a b.txt", "```file:../x\n  ```\n\n"⟩ :=
    ⟨by decide +kernel, by decide +kernel, by decide, _, by decide +kernel, hbody⟩
  have hsecond : IsBlock ⟨"b", ""⟩ :=
    ⟨by decide +kernel, by decide +kernel, by decide, [], rfl, by simp⟩
  refine files_encode.1 _ _ (by simp) hprose (List.forall_mem_cons.2 ⟨⟨hfirst, hbehind⟩, ?_⟩)
  exact List.forall_mem_cons.2 ⟨⟨hsecond, by simp⟩, by simp⟩

end Scaffold.Reply
