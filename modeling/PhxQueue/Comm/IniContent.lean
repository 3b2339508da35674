import PhxQueue.Comm.IniParser

/-!
# What the INI parser stores

The loop of `ParseContent` over the lines of a file against the reference reading.

* `lookedLines`           the lines that the loop looks at, while its `int` counts what is left;
* `parseContent_eq`       it ends, and has read these lines as `StrTrim` trims;
* `NoBlankField`          no field that would be used is made of blanks only;
* `parseContent_iff`      **the map stored is that of the reference reading exactly when no such field is
                          used and the lines not looked at store nothing**;
* `parseContent_iff_of_lt`   for files below 2 GiB, when no such field is used;
* `blankValue_not_reference`   a value of blanks.
-/

set_option linter.unusedSectionVars false

namespace PhxQueue.Comm
open Lib

/-! ## The lines looked at -/

/-- A last line of which only `n` characters are counted: the character after them still ends a key. -/
def lookedLine (n : ℕ) (line : List Char) : List Char :=
  if '=' ∉ line.take n ∧ (line.drop n).headD nul = '=' then line.take n ++ ['='] else line.take n

def joinLines (lines : List (List Char)) : List Char := ['\n'].intercalate lines

/-- What an `int` makes of the number of bytes left. -/
def intLength (rest : List Char) : ℤ := Int.bmod rest.length (2 ^ 32)

/-- The lines that the loop looks at: as long as the `int` is positive. -/
def lookedLines : List (List Char) → List (List Char)
  | [] => []
  | [line] => if 0 < intLength line then [lookedLine (intLength line).toNat line] else []
  | line :: line' :: lines =>
    if 0 < intLength (joinLines (line :: line' :: lines)) then
      line :: lookedLines (line' :: lines)
    else []

section
variable {src after : List Char} {ptr : ℕ} {s : IniState} {line : List Char}

lemma dropWhile_append_of_ne_nil {p : Char → Bool} (h : line.dropWhile p ≠ []) :
    (line ++ after).dropWhile p = line.dropWhile p ++ after := by
  rw [List.dropWhile_append, if_neg]
  simpa using h

lemma mem_dropWhile_blank {c : Char} (hc : isBlank c = false) :
    c ∈ line.dropWhile isBlank ↔ c ∈ line := by
  constructor
  · exact fun h => (List.dropWhile_suffix isBlank).subset h
  · intro h
    rw [← List.takeWhile_append_dropWhile (p := isBlank) (l := line)] at h
    refine (List.mem_append.mp h).resolve_left fun hmem => ?_
    have hblank := List.mem_takeWhile_imp hmem
    rw [hc] at hblank
    cases hblank

lemma values_readLine_of_open {cs : List Char} {trim : List Char → List Char}
    (h : line.dropWhile isBlank = '[' :: cs) : (readLine trim s line).values = s.values := by
  unfold readLine IniLine.parse
  rw [h]
  rfl

lemma readLine_of_comment {c : Char} {cs : List Char} {trim : List Char → List Char}
    (h : line.dropWhile isBlank = c :: cs) (hopen : c ≠ '[') (hc : c = '#' ∨ c = ';') :
    readLine trim s line = s := by
  unfold readLine IniLine.parse
  rw [h]
  dsimp only
  rw [if_neg hopen, if_pos hc]

lemma readLine_of_item {c : Char} {cs : List Char} {trim : List Char → List Char}
    (h : line.dropWhile isBlank = c :: cs) (hopen : c ≠ '[') (hc : ¬ (c = '#' ∨ c = ';')) :
    readLine trim s line =
      if '=' ∈ c :: cs then
        s.store (trim ((c :: cs).takeWhile fun c => c != '='))
          (trim (((c :: cs).dropWhile fun c => c != '=').tail.takeWhile fun c => c != '\r'))
      else s := by
  unfold readLine IniLine.parse
  rw [h]
  dsimp only
  rw [if_neg hopen, if_neg hc]
  by_cases hmem : '=' ∈ c :: cs
  · rw [if_pos hmem, if_pos hmem]
  · rw [if_neg hmem, if_neg hmem]

/-- What a line does that has nothing but blanks before the cut. -/
lemma values_parseLine_nil (h : src.drop ptr = line ++ after) (hne : line ≠ [])
    (hl : line.dropWhile isBlank = []) :
    (parseLine src ptr (ptr + line.length) s).values =
      if after.headD nul = '=' then (s.store (strTrim []) []).values else s.values := by
  obtain ⟨ptr', hdrop, heq⟩ := parseLine_of_ne_nil (s := s) h hne
  rw [hl] at hdrop heq
  have hitem := parseItem_of_not_mem (s := s) hdrop List.not_mem_nil
  rw [heq, List.nil_append, hitem]
  by_cases hnext : after.headD nul = '='
  · rw [hnext]
    rfl
  · rw [if_neg hnext, if_neg hnext]
    split
    · rfl
    · split <;> rfl

/-- What one does whose first character that is no blank is given. -/
lemma values_parseLine_cons (h : src.drop ptr = line ++ after) (hnl : '\n' ∉ line)
    (hnul : nul ∉ line) {c : Char} {cs : List Char} (hl : line.dropWhile isBlank = c :: cs) :
    (parseLine src ptr (ptr + line.length) s).values =
      if c = '[' ∨ c = '#' ∨ c = ';' then s.values
      else if '=' ∈ c :: cs then (readLine strTrim s line).values
      else if after.headD nul = '=' then (s.store (strTrim (c :: cs)) []).values
      else s.values := by
  have hne : line ≠ [] := by
    rintro rfl
    cases hl
  have hsub := (List.dropWhile_suffix (l := line) isBlank).subset
  obtain ⟨ptr', hdrop, heq⟩ := parseLine_of_ne_nil (s := s) h hne
  rw [hl] at hsub hdrop heq
  have hnl' : '\n' ∉ c :: cs := fun hmem => hnl (hsub hmem)
  have hc : c ≠ '\n' ∧ c ≠ nul := by
    constructor
    · rintro rfl
      exact hnl' List.mem_cons_self
    · rintro rfl
      exact hnul (hsub List.mem_cons_self)
  rw [heq]
  show (if c = '[' then _ else if c ∉ ['#', ';', '\n', nul] then _ else s).values = _
  by_cases hopen : c = '['
  · rw [if_pos hopen, if_pos (Or.inl hopen)]
    rfl
  rw [if_neg hopen]
  by_cases hcomment : c = '#' ∨ c = ';'
  · rw [if_pos (Or.inr hcomment), if_neg]
    rcases hcomment with rfl | rfl <;> simp
  rw [if_neg (not_or.mpr ⟨hopen, hcomment⟩), if_pos (by simp [hc, not_or.mp hcomment]),
    readLine_of_item hl hopen hcomment]
  by_cases hmem : '=' ∈ c :: cs
  · rw [if_pos hmem, if_pos hmem, parseItem_of_mem hdrop hnl' hmem]
  · rw [if_neg hmem, parseItem_of_not_mem hdrop hmem]
    split <;> rfl

/-- A line cut off before any character stores what the line that is looked at does. -/
lemma values_parseLine (h : src.drop ptr = line ++ after) (hnl : '\n' ∉ line) (hnul : nul ∉ line)
    (hne : line ≠ []) :
    (parseLine src ptr (ptr + line.length) s).values =
      (readLine strTrim s
        (if '=' ∉ line ∧ after.headD nul = '=' then line ++ ['='] else line)).values := by
  have heqBlank : isBlank '=' = false := rfl
  have hiff : '=' ∈ line.dropWhile isBlank ↔ '=' ∈ line := mem_dropWhile_blank heqBlank
  cases hl : line.dropWhile isBlank with
  | nil =>
    -- nothing but blanks before the cut
    rw [hl] at hiff
    have hmem : '=' ∉ line := fun hmem => List.not_mem_nil (hiff.mpr hmem)
    rw [values_parseLine_nil h hne hl]
    by_cases hnext : after.headD nul = '='
    · have hdropEq : (line ++ ['=']).dropWhile isBlank = ['='] := by
        rw [List.dropWhile_append, hl]
        rfl
      rw [if_pos hnext, if_pos ⟨hmem, hnext⟩,
        readLine_of_item hdropEq (by decide) (by decide)]
      rfl
    · rw [if_neg hnext, if_neg fun hboth => hnext hboth.2]
      unfold readLine IniLine.parse
      rw [hl]
  | cons c cs =>
    rw [values_parseLine_cons h hnl hnul hl]
    rw [hl] at hiff
    by_cases hcut : '=' ∉ line ∧ after.headD nul = '='
    · have hmem : '=' ∉ c :: cs := fun hmem => hcut.1 (hiff.mp hmem)
      have hdropEq : (line ++ ['=']).dropWhile isBlank = c :: (cs ++ ['=']) := by
        rw [dropWhile_append_of_ne_nil (by rw [hl]; exact List.cons_ne_nil c cs), hl]
        rfl
      rw [if_pos hcut, if_neg hmem, if_pos hcut.2]
      by_cases hopen : c = '['
      · rw [if_pos (Or.inl hopen)]
        rw [hopen] at hdropEq
        exact (values_readLine_of_open hdropEq).symm
      by_cases hcomment : c = '#' ∨ c = ';'
      · rw [if_pos (Or.inr hcomment), readLine_of_comment hdropEq hopen hcomment]
      have htake : ((c :: (cs ++ ['='])).takeWhile fun c => c != '=') = c :: cs := by
        rw [← List.cons_append, List.takeWhile_append_of_pos]
        · simp
        · intro x hx
          have hxe : x ≠ '=' := by
            rintro rfl
            exact hmem hx
          simp [hxe]
      have hrest : ((c :: (cs ++ ['='])).dropWhile fun c => c != '=').tail = [] := by
        rw [← List.cons_append, List.dropWhile_append_of_pos]
        · rfl
        · intro x hx
          have hxe : x ≠ '=' := by
            rintro rfl
            exact hmem hx
          simp [hxe]
      rw [if_neg (not_or.mpr ⟨hopen, hcomment⟩), readLine_of_item hdropEq hopen hcomment,
        if_pos (by simp), htake, hrest]
      rfl
    · rw [if_neg hcut]
      by_cases hopen : c = '['
      · rw [if_pos (Or.inl hopen)]
        rw [hopen] at hl
        exact (values_readLine_of_open hl).symm
      by_cases hcomment : c = '#' ∨ c = ';'
      · rw [if_pos (Or.inr hcomment), readLine_of_comment hl hopen hcomment]
      rw [if_neg (not_or.mpr ⟨hopen, hcomment⟩), readLine_of_item hl hopen hcomment]
      by_cases hmem : '=' ∈ c :: cs
      · rw [if_pos hmem]
      · have hnext : after.headD nul ≠ '=' := fun hnext => hcut ⟨fun h' => hmem (hiff.mpr h'), hnext⟩
        rw [if_neg hmem, if_neg hnext, if_neg hmem]

/-! ## The loop -/

lemma takeWhile_not_nul (h : nul ∉ line) : (line.takeWhile fun c => c != nul) = line :=
  takeWhile_of_not_mem h

lemma findIdx?_newline (l : List Char) : (l.findIdx? fun c => c == '\n') =
    if '\n' ∈ l then some (l.takeWhile fun c => c != '\n').length else none := by
  have hnot : (fun c : Char => c == '\n') = fun c => !(c != '\n') := by
    funext c
    exact (Bool.not_not _).symm
  have hall : (∀ c ∈ l, (c != '\n') = true) ↔ '\n' ∉ l := by
    simp only [bne_iff_ne]
    exact ⟨fun h hmem => h _ hmem rfl, fun h c hc heq => h (heq ▸ hc)⟩
  rw [hnot, findIdx?_not_eq]
  by_cases hmem : '\n' ∈ l
  · rw [if_neg fun h => hall.mp h hmem, if_pos hmem]
  · rw [if_pos (hall.mpr hmem), if_neg hmem]

lemma strchr_newline {rest : List Char} (h : src.drop ptr = line ++ '\n' :: rest)
    (hnl : '\n' ∉ line) (hnul : nul ∉ line) : strchr src ptr '\n' = some (ptr + line.length) := by
  have htake : ((line ++ '\n' :: rest).takeWhile fun c => c != nul) =
      line ++ '\n' :: rest.takeWhile fun c => c != nul := by
    rw [List.takeWhile_append, takeWhile_not_nul hnul, if_pos rfl]
    rfl
  have hlen : ((line ++ '\n' :: rest.takeWhile fun c => c != nul).takeWhile fun c => c != '\n') =
      line := by
    rw [List.takeWhile_append, takeWhile_of_not_mem hnl, if_pos rfl]
    exact List.append_nil line
  unfold strchr
  rw [h, htake, findIdx?_newline, if_pos (by simp), hlen]
  rfl

lemma strchr_none (h : src.drop ptr = line) (hnl : '\n' ∉ line) (hnul : nul ∉ line) :
    strchr src ptr '\n' = none := by
  unfold strchr
  rw [h, takeWhile_not_nul hnul, findIdx?_newline, if_neg hnl]
  rfl

lemma joinLines_cons (line line' : List Char) (lines : List (List Char)) :
    joinLines (line :: line' :: lines) = line ++ '\n' :: joinLines (line' :: lines) := rfl

lemma intLength_le (rest : List Char) : intLength rest ≤ rest.length := by
  unfold intLength
  rw [Int.bmod_eq_emod]
  split <;> omega

lemma intLength_rest (line rest : List Char) :
    Int.bmod (intLength (line ++ '\n' :: rest) - (line.length + 1)) (2 ^ 32) = intLength rest := by
  unfold intLength
  rw [Int.bmod_sub_bmod]
  congr 1
  rw [List.length_append, List.length_cons]
  push_cast
  ring

theorem parseLines_eq (lines : List (List Char)) {fuel : ℕ} (hfuel : lines.length < fuel)
    (hne : lines ≠ []) (hdrop : src.drop ptr = joinLines lines)
    (hlines : ∀ line ∈ lines, '\n' ∉ line ∧ nul ∉ line) :
    (parseLines src fuel ptr (intLength (joinLines lines)) s).map IniState.values =
      some (readLines strTrim s (lookedLines lines)).values := by
  induction lines generalizing fuel ptr s with
  | nil => exact absurd rfl hne
  | cons line lines ih =>
    obtain ⟨⟨hnl, hnul⟩, hrest⟩ := List.forall_mem_cons.mp hlines
    cases fuel with
    | zero => exact absurd hfuel (Nat.not_lt_zero _)
    | succ fuel =>
      have hfuel := Nat.lt_of_succ_lt_succ hfuel
      cases lines with
      | nil =>
        -- the last line, of which the `int` counts a part
        have hjoin : joinLines [line] = line := List.append_nil line
        rw [hjoin] at hdrop ⊢
        unfold parseLines lookedLines
        by_cases hpos : 0 < intLength line
        · obtain ⟨n, hn⟩ := Int.eq_ofNat_of_zero_le hpos.le
          have hle : n ≤ line.length := by
            have hle := intLength_le line
            omega
          have hlen : (line.take n).length = n := List.length_take_of_le hle
          have hcut : src.drop ptr = line.take n ++ line.drop n := by
            rw [List.take_append_drop, hdrop]
          have htake : line.take n ≠ [] := by
            refine List.ne_nil_of_length_pos ?_
            omega
          have hvalues := values_parseLine (s := s) hcut
            (fun hmem => hnl (List.mem_of_mem_take hmem))
            (fun hmem => hnul (List.mem_of_mem_take hmem)) htake
          rw [hlen] at hvalues
          rw [if_pos hpos, if_pos hpos, strchr_none hdrop hnl hnul, hn]
          dsimp only [Option.getD_none, Int.toNat_natCast]
          have hend : (n : ℤ) - ((ptr + n : ℕ) - (ptr : ℤ) + 1) = -1 := by
            push_cast
            ring
          rw [hend]
          cases fuel with
          | zero => exact absurd hfuel (lt_irrefl 0)
          | succ fuel =>
            show (some (parseLine src ptr (ptr + n) s)).map IniState.values = _
            rw [Option.map_some, hvalues]
            rfl
        · rw [if_neg hpos, if_neg hpos]
          rfl
      | cons line' lines =>
        rw [joinLines_cons] at hdrop
        have hstep : src.drop (ptr + line.length + 1) = joinLines (line' :: lines) := by
          rw [← List.drop_drop, ← List.drop_drop, hdrop, List.drop_left]
          rfl
        unfold parseLines lookedLines
        by_cases hpos : 0 < intLength (joinLines (line :: line' :: lines))
        · rw [if_pos hpos, if_pos hpos, strchr_newline hdrop hnl hnul]
          dsimp only [Option.getD_some]
          have hlen : ((ptr + line.length : ℕ) : ℤ) - ptr + 1 = line.length + 1 := by
            push_cast
            ring
          rw [hlen, joinLines_cons, intLength_rest,
            parseLine_eq hdrop hnl hnul (Or.inl rfl)]
          exact ih hfuel (List.cons_ne_nil _ _) hstep hrest
        · rw [if_neg hpos, if_neg hpos]
          rfl

/-! ## The content -/

theorem parseContent_eq {content : List Char} (hnul : nul ∉ content) :
    parseContent content =
      some (readLines strTrim {} (lookedLines (content.splitOn '\n'))).values := by
  by_cases hempty : content = []
  · rw [hempty]
    rfl
  have hjoin : joinLines (content.splitOn '\n') = content := List.intercalate_splitOn '\n'
  have hfuel : (content.splitOn '\n').length < content.length + 2 :=
    Nat.lt_succ_of_le (length_splitOnP_le content)
  have hlines : ∀ line ∈ content.splitOn '\n', '\n' ∉ line ∧ nul ∉ line := fun line hline =>
    ⟨fun hmem => absurd (mem_of_mem_splitOnP hline hmem).1 (by decide),
      fun hmem => hnul (mem_of_mem_splitOnP hline hmem).2⟩
  have hloop : (parseLines content (content.length + 2) 0
      (intLength (joinLines (content.splitOn '\n'))) {}).map IniState.values =
      some (readLines strTrim {} (lookedLines (content.splitOn '\n'))).values :=
    parseLines_eq _ hfuel (List.splitOn_ne_nil '\n' content) hjoin.symm hlines
  rw [hjoin] at hloop
  unfold parseContent
  rw [if_neg hempty]
  exact hloop

end

/-! ## Fields of blanks -/

/-- No field that is used is made of blanks only: not the name of a section that has an item, and no
value that is the first of its section and key.  `raw` is the name as it is written, and `m` what is
stored. -/
def NoBlankField (raw : List Char) (m : IniValues) : List (List Char) → Prop
  | [] => True
  | line :: lines =>
    match IniLine.parse line with
    | .opens name => NoBlankField name m lines
    | .item key value =>
      ¬ OnlyBlanks raw ∧
      (trimBoth isBlank raw ≠ [] → OnlyBlanks value →
        m (trimBoth isBlank raw, trimBoth isBlank key) ≠ none) ∧
      NoBlankField raw (readLine (trimBoth isBlank) ⟨trimBoth isBlank raw, m⟩ line).values lines
    | .ignored => NoBlankField raw m lines

section
variable {m : IniValues} {k k' : List Char × List Char} {v w : List Char}

lemma IniValues.emplace_mono (h : m k = some v) : m.emplace k' w k = some v := by
  unfold IniValues.emplace
  by_cases hk : k = k'
  · rw [if_pos hk, ← hk, h]
    rfl
  · rw [if_neg hk]
    exact h

lemma IniValues.emplace_self : m.emplace k w k = some ((m k).getD w) := if_pos rfl

lemma IniValues.emplace_of_ne_none (h : m k ≠ none) : m.emplace k v = m.emplace k w := by
  obtain ⟨u, hu⟩ := Option.ne_none_iff_exists'.mp h
  unfold IniValues.emplace
  rw [hu]
  rfl

lemma store_mono {s : IniState} (h : s.values k = some v) (key value : List Char) :
    (s.store key value).values k = some v := by
  unfold IniState.store
  split
  · exact h
  · exact IniValues.emplace_mono h

lemma readLines_mono {trim : List Char → List Char} (lines : List (List Char)) {s : IniState}
    (h : s.values k = some v) : (readLines trim s lines).values k = some v := by
  induction lines generalizing s with
  | nil => exact h
  | cons line lines ih =>
    refine ih ?_
    unfold readLine
    split
    · exact h
    · exact store_mono h _ _
    · exact h

end

lemma strTrim_of_not_onlyBlanks {s : List Char} (h : ¬ OnlyBlanks s) :
    strTrim s = trimBoth isBlank s := by
  rw [strTrim_eq, if_neg h]

lemma strTrim_of_onlyBlanks {s : List Char} (h : OnlyBlanks s) : strTrim s = s := by
  rw [strTrim_eq, if_pos h]

lemma trimBoth_of_onlyBlanks {s : List Char} (h : OnlyBlanks s) : trimBoth isBlank s ≠ s := by
  rw [trimBoth_eq_nil h.2]
  exact h.1.symm

lemma key_not_onlyBlanks {line key value : List Char}
    (h : IniLine.parse line = .item key value) : ¬ OnlyBlanks key := by
  unfold IniLine.parse at h
  cases hl : line.dropWhile isBlank with
  | nil =>
    rw [hl] at h
    cases h
  | cons c cs =>
    rw [hl] at h
    have hc : isBlank c = false := by
      have hhead := List.head?_dropWhile_not isBlank line
      rw [hl] at hhead
      simpa using hhead
    dsimp only at h
    split at h
    · cases h
    split at h
    · cases h
    split at h
    · cases h
      rintro ⟨hne, hblank⟩
      rw [List.takeWhile_cons] at hne hblank
      by_cases heq : (c != '=') = true
      · rw [if_pos heq] at hblank
        have hcb := hblank c List.mem_cons_self
        rw [hc] at hcb
        cases hcb
      · rw [if_neg heq] at hne
        exact hne rfl
    · cases h

lemma readLine_item_eta {trim : List Char → List Char} {s : IniState} {line key value : List Char}
    (h : IniLine.parse line = .item key value) :
    readLine trim s line = ⟨s.sectionName, (readLine trim s line).values⟩ := by
  unfold readLine IniState.store
  rw [h]
  dsimp only
  split <;> rfl

/-- An item with no field of blanks does the same in both ways of trimming. -/
lemma readLine_strTrim_eq {raw line key value : List Char} {m : IniValues}
    (h : IniLine.parse line = .item key value) (hraw : ¬ OnlyBlanks raw)
    (hvalue : trimBoth isBlank raw ≠ [] → OnlyBlanks value →
      m (trimBoth isBlank raw, trimBoth isBlank key) ≠ none) :
    readLine strTrim ⟨strTrim raw, m⟩ line =
      ⟨strTrim raw, (readLine (trimBoth isBlank) ⟨trimBoth isBlank raw, m⟩ line).values⟩ := by
  have hstep : readLine strTrim ⟨trimBoth isBlank raw, m⟩ line =
      readLine (trimBoth isBlank) ⟨trimBoth isBlank raw, m⟩ line := by
    unfold readLine
    rw [h]
    dsimp only
    rw [strTrim_of_not_onlyBlanks (key_not_onlyBlanks h)]
    unfold IniState.store
    by_cases hname : trimBoth isBlank raw = []
    · rw [if_pos hname, if_pos hname]
    rw [if_neg hname, if_neg hname]
    by_cases hblank : OnlyBlanks value
    · rw [IniValues.emplace_of_ne_none (hvalue hname hblank)]
    · rw [strTrim_of_not_onlyBlanks hblank]
  rw [strTrim_of_not_onlyBlanks hraw, readLine_item_eta h, hstep]

section
variable {raw : List Char} {m : IniValues}

/-- Where no field of blanks is used, both ways of trimming store the same. -/
lemma values_eq_of_noBlankField (lines : List (List Char)) (h : NoBlankField raw m lines) :
    (readLines strTrim ⟨strTrim raw, m⟩ lines).values =
      (readLines (trimBoth isBlank) ⟨trimBoth isBlank raw, m⟩ lines).values := by
  induction lines generalizing raw m with
  | nil => rfl
  | cons line lines ih =>
    show (readLines strTrim (readLine strTrim _ line) lines).values =
      (readLines (trimBoth isBlank) (readLine (trimBoth isBlank) _ line) lines).values
    unfold NoBlankField at h
    cases hline : IniLine.parse line with
    | opens name =>
      rw [hline] at h
      unfold readLine
      rw [hline]
      exact ih h
    | ignored =>
      rw [hline] at h
      unfold readLine
      rw [hline]
      exact ih h
    | item key value =>
      rw [hline] at h
      obtain ⟨hraw, hvalue, hrest⟩ := h
      have heta : readLine (trimBoth isBlank) ⟨trimBoth isBlank raw, m⟩ line =
          ⟨trimBoth isBlank raw, _⟩ := readLine_item_eta hline
      rw [readLine_strTrim_eq hline hraw hvalue, ih hrest]
      exact congrArg (fun s => (readLines (trimBoth isBlank) s lines).values) heta.symm

/-- An entry that the reference reading does not make. -/
def Untrimmed (m : IniValues) : Prop :=
  ∃ k v, m k = some v ∧ (trimBoth isBlank k.1 ≠ k.1 ∨ trimBoth isBlank v ≠ v)

/-- **A field of blanks that is used is seen in the map.** -/
lemma untrimmed_of_not_noBlankField (lines : List (List Char)) (h : ¬ NoBlankField raw m lines) :
    Untrimmed (readLines strTrim ⟨strTrim raw, m⟩ lines).values := by
  induction lines generalizing raw m with
  | nil => exact absurd trivial h
  | cons line lines ih =>
    show Untrimmed (readLines strTrim (readLine strTrim _ line) lines).values
    unfold NoBlankField at h
    cases hline : IniLine.parse line with
    | opens name =>
      rw [hline] at h
      unfold readLine
      rw [hline]
      exact ih h
    | ignored =>
      rw [hline] at h
      unfold readLine
      rw [hline]
      exact ih h
    | item key value =>
      rw [hline] at h
      have hkey := strTrim_of_not_onlyBlanks (key_not_onlyBlanks hline)
      by_cases hraw : OnlyBlanks raw
      · -- the item is stored under a section of blanks
        refine ⟨(raw, strTrim key), (m (raw, strTrim key)).getD (strTrim value),
          readLines_mono lines ?_, Or.inl (trimBoth_of_onlyBlanks hraw)⟩
        unfold readLine IniState.store
        rw [hline, strTrim_of_onlyBlanks hraw]
        dsimp only
        rw [if_neg hraw.1]
        exact IniValues.emplace_self
      by_cases hvalue : trimBoth isBlank raw ≠ [] → OnlyBlanks value →
          m (trimBoth isBlank raw, trimBoth isBlank key) ≠ none
      · rw [readLine_strTrim_eq hline hraw hvalue]
        exact ih fun hrest => h ⟨hraw, hvalue, hrest⟩
      · -- the value of blanks is stored
        push Not at hvalue
        obtain ⟨hname, hblank, hnew⟩ := hvalue
        refine ⟨(trimBoth isBlank raw, trimBoth isBlank key), value, readLines_mono lines ?_,
          Or.inr (trimBoth_of_onlyBlanks hblank)⟩
        unfold readLine IniState.store
        rw [hline, strTrim_of_not_onlyBlanks hraw]
        dsimp only
        rw [if_neg hname, hkey, strTrim_of_onlyBlanks hblank]
        refine IniValues.emplace_self.trans ?_
        rw [hnew]
        rfl

end

/-- What the reference reading has stored is trimmed, and so is the section. -/
structure Trimmed (s : IniState) : Prop where
  sectionName : trimBoth isBlank s.sectionName = s.sectionName
  values : ¬ Untrimmed s.values

lemma trimmed_readLine {s : IniState} (h : Trimmed s) (line : List Char) :
    Trimmed (readLine (trimBoth isBlank) s line) := by
  unfold readLine
  split
  · exact ⟨trimBoth_trimBoth _, h.values⟩
  · rename_i key value _
    unfold IniState.store
    split
    · exact h
    · refine ⟨h.sectionName, ?_⟩
      rintro ⟨k, v, hv, hbad⟩
      have hv : (if k = (s.sectionName, trimBoth isBlank key) then
          some ((s.values (s.sectionName, trimBoth isBlank key)).getD (trimBoth isBlank value))
        else s.values k) = some v := hv
      by_cases hk : k = (s.sectionName, trimBoth isBlank key)
      · rw [if_pos hk] at hv
        cases hold : s.values (s.sectionName, trimBoth isBlank key) with
        | some u =>
          rw [hold] at hv
          cases hv
          rw [← hk] at hold
          exact h.values ⟨k, u, hold, hbad⟩
        | none =>
          rw [hold] at hv
          cases hv
          rw [hk] at hbad
          rcases hbad with hbad | hbad
          · exact hbad h.sectionName
          · exact hbad (trimBoth_trimBoth value)
      · rw [if_neg hk] at hv
        exact h.values ⟨k, v, hv, hbad⟩
  · exact h

lemma trimmed_readLines (lines : List (List Char)) {s : IniState} (h : Trimmed s) :
    Trimmed (readLines (trimBoth isBlank) s lines) := by
  induction lines generalizing s with
  | nil => exact h
  | cons line lines ih => exact ih (trimmed_readLine h line)

lemma trimmed_reference (content : List Char) : ¬ Untrimmed (reference content) := by
  refine (trimmed_readLines _ ⟨rfl, ?_⟩).values
  rintro ⟨k, v, hv, -⟩
  cases hv

/-! ## When the map is that of the reference reading -/

/-- **`ParseContent` stores what the reference reading does, exactly when** no field of blanks is used in
the lines that it looks at, and the others store nothing more. -/
theorem parseContent_iff (content : List Char) (hnul : nul ∉ content) :
    parseContent content = some (reference content) ↔
      NoBlankField [] (fun _ => none) (lookedLines (content.splitOn '\n')) ∧
        (readLines (trimBoth isBlank) {} (lookedLines (content.splitOn '\n'))).values =
          reference content := by
  rw [parseContent_eq hnul, Option.some.injEq]
  constructor
  · intro heq
    have hno : NoBlankField [] (fun _ => none) (lookedLines (content.splitOn '\n')) := by
      by_contra hbad
      have hun := untrimmed_of_not_noBlankField _ hbad
      refine trimmed_reference content ?_
      rw [← heq]
      exact hun
    exact ⟨hno, (values_eq_of_noBlankField _ hno).symm.trans heq⟩
  · rintro ⟨hno, hlooked⟩
    exact (values_eq_of_noBlankField _ hno).trans hlooked

def keyValue : List Char := "[ s ] # \n\tk = v \r\n;x=y\nk=w".toList

theorem parseContent_keyValue : nul ∉ keyValue ∧
    (parseContent keyValue = some (reference keyValue) ↔
      NoBlankField [] (fun _ => none) (lookedLines (keyValue.splitOn '\n')) ∧
        (readLines (trimBoth isBlank) {} (lookedLines (keyValue.splitOn '\n'))).values =
          reference keyValue) :=
  ⟨by decide, parseContent_iff keyValue (by decide)⟩

lemma intLength_of_lt {rest : List Char} (h : rest.length < 2 ^ 31) :
    intLength rest = rest.length := by
  unfold intLength
  rw [Int.bmod_eq_emod]
  split <;> omega

/-- All lines are looked at, but for an empty one at the end. -/
lemma lookedLines_of_lt (lines : List (List Char)) (hlt : (joinLines lines).length < 2 ^ 31) :
    lookedLines lines = lines ∨ lookedLines lines ++ [[]] = lines := by
  induction lines with
  | nil => exact Or.inl rfl
  | cons line lines ih =>
    cases lines with
    | nil =>
      have hjoin : joinLines [line] = line := List.append_nil line
      rw [hjoin] at hlt
      unfold lookedLines
      rw [intLength_of_lt hlt, Int.toNat_natCast]
      by_cases hpos : 0 < line.length
      · left
        have hno : ¬ ('=' ∉ line.take line.length ∧ (line.drop line.length).headD nul = '=') := by
          rintro ⟨-, heq⟩
          rw [List.drop_length] at heq
          exact absurd heq (by decide)
        unfold lookedLine
        rw [if_pos (Int.natCast_pos.mpr hpos), if_neg hno, List.take_length]
      · right
        have hnil : line = [] := List.length_eq_zero_iff.mp (Nat.eq_zero_of_not_pos hpos)
        rw [hnil]
        rfl
    | cons line' lines =>
      have hlen : (joinLines (line :: line' :: lines)).length =
          line.length + ((joinLines (line' :: lines)).length + 1) := by
        rw [joinLines_cons, List.length_append, List.length_cons]
      unfold lookedLines
      rw [intLength_of_lt hlt, if_pos (by omega)]
      rcases ih (by omega) with heq | heq
      · left
        rw [heq]
      · right
        rw [List.cons_append, heq]

lemma readLines_append_empty (s : IniState) (lines : List (List Char)) :
    readLines (trimBoth isBlank) s (lines ++ [[]]) = readLines (trimBoth isBlank) s lines := by
  unfold readLines
  rw [List.foldl_append]
  rfl

lemma noBlankField_append_empty (lines : List (List Char)) {raw : List Char} {m : IniValues} :
    NoBlankField raw m (lines ++ [[]]) ↔ NoBlankField raw m lines := by
  induction lines generalizing raw m with
  | nil => exact Iff.rfl
  | cons line lines ih =>
    rw [List.cons_append]
    unfold NoBlankField
    cases IniLine.parse line with
    | opens name => exact ih
    | item key value => exact and_congr_right' (and_congr_right' ih)
    | ignored => exact ih

theorem parseContent_iff_of_lt (content : List Char) (hnul : nul ∉ content)
    (hlt : content.length < 2 ^ 31) :
    parseContent content = some (reference content) ↔
      NoBlankField [] (fun _ => none) (content.splitOn '\n') := by
  have hjoin : joinLines (content.splitOn '\n') = content := List.intercalate_splitOn '\n'
  rw [← hjoin] at hlt
  rw [parseContent_iff content hnul]
  unfold reference
  rcases lookedLines_of_lt _ hlt with heq | heq
  · rw [heq]
    exact and_iff_left rfl
  · have hread := readLines_append_empty {} (lookedLines (content.splitOn '\n'))
    have hno : NoBlankField [] (fun _ => none) _ ↔ NoBlankField [] (fun _ => none) _ :=
      noBlankField_append_empty (lookedLines (content.splitOn '\n'))
    rw [heq] at hread hno
    rw [hread, hno]
    exact and_iff_left rfl

def blankValue : List Char := "[s]\nk=  ".toList

/-- The blanks are stored as they are. -/
theorem blankValue_not_reference : nul ∉ blankValue ∧
    parseContent blankValue ≠ some (reference blankValue) := by
  refine ⟨by decide, fun heq => ?_⟩
  have hstored : (parseContent blankValue).map (fun m => m (['s'], ['k'])) =
      some (some [' ', ' ']) := by decide
  rw [heq] at hstored
  have hreference : reference blankValue (['s'], ['k']) = some [] := by decide
  rw [Option.map_some, hreference] at hstored
  cases hstored

end PhxQueue.Comm
