import PhxQueue.Lib.Scan

/-!
# INIParser

`ParseContent` of `phxqueue_phxrpc/comm/iniparser.cpp` goes over the bytes of a file with pointers; here
they are positions.

* `strTrim`, `parseLine`, `parseContent`   the code;
* `IniLine`, `readLine`, `reference`       the grammar: what a line is, what it does, line by line;
* `strTrim_eq`                             what `StrTrim` leaves;
* `parseLine_eq`                           **a line does what its grammar says, as `StrTrim` trims**.
-/

set_option linter.unusedSectionVars false

namespace PhxQueue.Comm
open Lib

/-! ## The code -/

/-- The blanks of `StrTrim("\t ", ..)`. -/
def isBlank (c : Char) : Bool := c == '\t' || c == ' '

def nul : Char := Char.ofNat 0

/-- `StrTrim`: `find_first_not_of`, then `find_last_not_of`. -/
def strTrim (str : List Char) : List Char :=
  let str := match str.findIdx? fun c => !isBlank c with
    | some st => str.drop st
    | none => str
  match str.reverse.findIdx? fun c => !isBlank c with
  | some fromEnd => str.take (str.length - fromEnd)
  | none => str

/-- `section_key2val`. -/
abbrev IniValues := List Char × List Char → Option (List Char)

/-- `emplace`: a key that is there keeps its value. -/
def IniValues.emplace (m : IniValues) (k : List Char × List Char) (v : List Char) : IniValues :=
  fun k' => if k' = k then some ((m k).getD v) else m k'

/-- The section that the parser is in, and what it has stored. -/
structure IniState where
  sectionName : List Char := []
  values : IniValues := fun _ => none

section
variable (src : List Char) (ptr eol : ℕ) (s : IniState)

/-- A line that begins with `[`. -/
def parseSection : IniState :=
  let tmp := ptr + 1
  let ptr := scan nul (fun c => c == ']' || c == '\n') src (eol - tmp) tmp
  { s with sectionName := strTrim (slice src tmp ptr) }

def parseItem : IniState :=
  let tmp := ptr
  let ptr := scan nul (fun c => c == '=') src (eol - tmp) tmp
  let key := strTrim (slice src tmp ptr)
  if charAt nul src ptr = '=' ∧ s.sectionName ≠ [] then
    let tmp := ptr + 1
    let ptr := scan nul (fun c => c == '\n' || c == '\r') src (eol - tmp) tmp
    let val := strTrim (slice src tmp ptr)
    { s with values := s.values.emplace (s.sectionName, key) val }
  else s

/-- The line from `ptr` up to `eol`.  `strchr` finds the terminator too. -/
def parseLine : IniState :=
  if ptr < eol then
    let ptr := scan nul (fun c => !isBlank c) src (eol - ptr) ptr
    if charAt nul src ptr = '[' then parseSection src ptr eol s
    else if charAt nul src ptr ∉ ['#', ';', '\n', nul] then parseItem src ptr eol s
    else s
  else s

end

def strchr (src : List Char) (ptr : ℕ) (c : Char) : Option ℕ :=
  (((src.drop ptr).takeWhile fun c => c != nul).findIdx? fun c' => c' == c).map (ptr + ·)

/-- The loop over the lines; `len` is an `int`. -/
def parseLines (src : List Char) : (fuel ptr : ℕ) → (len : ℤ) → IniState → Option IniState
  | 0, _, _, _ => none
  | fuel + 1, ptr, len, s =>
    if 0 < len then
      let eol := (strchr src ptr '\n').getD (ptr + len.toNat)
      parseLines src fuel (eol + 1) (Int.bmod (len - ((eol : ℤ) - ptr + 1)) (2 ^ 32))
        (parseLine src ptr eol s)
    else some s

/-- `ParseContent`.  Every turn of its loop passes a byte. -/
def parseContent (content : List Char) : Option IniValues :=
  if content = [] then some fun _ => none
  else (parseLines content (content.length + 2) 0 (Int.bmod content.length (2 ^ 32)) {}).map
    IniState.values

/-! ## The grammar -/

/-- What a line is, with its fields as they are written. -/
inductive IniLine
  | opens (name : List Char)
  | item (key value : List Char)
  | ignored

def IniLine.parse (line : List Char) : IniLine :=
  match line.dropWhile isBlank with
  | [] => .ignored
  | c :: cs =>
    if c = '[' then .opens (cs.takeWhile fun c => c != ']')
    else if c = '#' ∨ c = ';' then .ignored
    else if '=' ∈ c :: cs then
      .item ((c :: cs).takeWhile fun c => c != '=')
        (((c :: cs).dropWhile fun c => c != '=').tail.takeWhile fun c => c != '\r')
    else .ignored

/-- Under a section that has a name, a value is stored. -/
def IniState.store (s : IniState) (key value : List Char) : IniState :=
  if s.sectionName = [] then s
  else { s with values := s.values.emplace (s.sectionName, key) value }

/-- What a line does, when its fields are trimmed by `trim`. -/
def readLine (trim : List Char → List Char) (s : IniState) (line : List Char) : IniState :=
  match IniLine.parse line with
  | .opens name => { s with sectionName := trim name }
  | .item key value => s.store (trim key) (trim value)
  | .ignored => s

def readLines (trim : List Char → List Char) (s : IniState) (lines : List (List Char)) : IniState :=
  lines.foldl (readLine trim) s

/-- **The reference reading**, line by line, with all spaces and tabs removed at both ends. -/
def reference (content : List Char) : IniValues :=
  (readLines (trimBoth isBlank) {} (content.splitOn '\n')).values

/-! ## Trimming -/

/-- A field that has nothing but blanks, and has some. -/
def OnlyBlanks (s : List Char) : Prop := s ≠ [] ∧ ∀ c ∈ s, isBlank c = true

instance (s : List Char) : Decidable (OnlyBlanks s) := inferInstanceAs (Decidable (_ ∧ _))

theorem strTrim_eq (s : List Char) :
    strTrim s = if OnlyBlanks s then s else trimBoth isBlank s := by
  unfold strTrim
  by_cases hall : ∀ c ∈ s, isBlank c = true
  · have hrev : ∀ c ∈ s.reverse, isBlank c = true := fun c hc => hall c (List.mem_reverse.mp hc)
    simp only [findIdx?_not_eq, if_pos hall, if_pos hrev]
    by_cases hnil : s = []
    · rw [hnil]
      rfl
    · rw [if_pos ⟨hnil, hall⟩]
  · have hkeep : ¬ ∀ c ∈ (s.dropWhile isBlank).reverse, isBlank c = true := by
      intro hrev
      apply trimBoth_ne_nil hall
      unfold trimBoth
      exact List.rdropWhile_eq_nil_iff.mpr fun c hc => hrev c (List.mem_reverse.mpr hc)
    simp only [findIdx?_not_eq, if_neg hall, drop_takeWhile, if_neg hkeep]
    rw [if_neg fun honly => hall honly.2]
    unfold trimBoth List.rdropWhile
    rw [← drop_takeWhile (s.dropWhile isBlank).reverse, List.reverse_drop, List.length_reverse,
      List.reverse_reverse]

/-! ## One line -/

section
variable {src l after : List Char} {ptr : ℕ} {s : IniState}

/-- Up to a `=`, and from it on. -/
lemma dropWhile_eq_cons {c : Char} (hc : c ∈ l) :
    ∃ v, (l.dropWhile fun c' => c' != c) = c :: v := by
  cases hdrop : l.dropWhile fun c' => c' != c with
  | nil =>
    have hall := List.dropWhile_eq_nil_iff.mp hdrop c hc
    simp at hall
  | cons c' v =>
    have hhead := List.head?_dropWhile_not (fun c' => c' != c) l
    rw [hdrop] at hhead
    have hc' : c' = c := by simpa using hhead
    exact ⟨v, by rw [hc']⟩

lemma takeWhile_of_not_mem {c : Char} (hc : c ∉ l) : (l.takeWhile fun c' => c' != c) = l := by
  refine List.takeWhile_eq_self_iff.mpr fun c' hc' => ?_
  have hne : c' ≠ c := by
    rintro rfl
    exact hc hc'
  simp [hne]

lemma takeWhile_or_newline {p : Char → Bool} (hl : '\n' ∉ l) :
    (l.takeWhile fun c => !(p c || c == '\n')) = l.takeWhile fun c => !p c := by
  apply takeWhile_congr
  intro c hc
  have hne : c ≠ '\n' := by
    rintro rfl
    exact hl hc
  simp [hne]

/-- An item with a `=`. -/
lemma parseItem_of_mem (h : src.drop ptr = l ++ after) (hl : '\n' ∉ l) (heq : '=' ∈ l) :
    parseItem src ptr (ptr + l.length) s =
      s.store (strTrim (l.takeWhile fun c => c != '='))
        (strTrim ((l.dropWhile fun c => c != '=').tail.takeWhile fun c => c != '\r')) := by
  obtain ⟨v, hv⟩ := dropWhile_eq_cons heq
  set k := (l.takeWhile fun c => c != '=').length with hk
  have hlen : l.length = k + 1 + v.length := by
    have hlen := congrArg List.length
      (List.takeWhile_append_dropWhile (p := fun c => c != '=') (l := l))
    rw [List.length_append, hv, List.length_cons] at hlen
    omega
  have hscan : scan nul (fun c => c == '=') src (ptr + l.length - ptr) ptr = ptr + k := by
    rw [Nat.add_sub_cancel_left]
    exact scan_eq h
  have hat : charAt nul src (ptr + k) = '=' := by
    rw [hk, charAt_takeWhile_length h, hv]
    rfl
  have hkey : slice src ptr (ptr + k) = l.takeWhile fun c => c != '=' := slice_takeWhile_length h
  -- the value comes after the first `=`
  have hdrop : src.drop (ptr + k + 1) = v ++ after := by
    rw [← List.drop_drop, hk, drop_takeWhile_length h, hv]
    rfl
  have hvl : '\n' ∉ v := by
    intro hmem
    refine hl ((List.dropWhile_suffix fun c => c != '=').subset ?_)
    rw [hv]
    exact List.mem_cons_of_mem _ hmem
  have hstop : (v.takeWhile fun c => !(c == '\n' || c == '\r')) =
      v.takeWhile fun c => c != '\r' :=
    (takeWhile_congr fun c _ => congrArg _ (Bool.or_comm _ _)).trans (takeWhile_or_newline hvl)
  have hvalue : scan nul (fun c => c == '\n' || c == '\r') src
      (ptr + l.length - (ptr + k + 1)) (ptr + k + 1) =
      ptr + k + 1 + (v.takeWhile fun c => !(c == '\n' || c == '\r')).length := by
    have hn : ptr + l.length - (ptr + k + 1) = v.length := by omega
    rw [hn]
    exact scan_eq hdrop
  unfold parseItem IniState.store
  simp only [hscan, hat, hkey, hvalue, slice_takeWhile_length hdrop, hstop, hv, true_and, ne_eq,
    ite_not, List.tail_cons]

/-- One without, before a character that may be a `=`. -/
lemma parseItem_of_not_mem (h : src.drop ptr = l ++ after) (heq : '=' ∉ l) :
    parseItem src ptr (ptr + l.length) s =
      if after.headD nul = '=' then s.store (strTrim l) [] else s := by
  have hall : (l.takeWhile fun c => !(c == '=')) = l := takeWhile_of_not_mem heq
  have hscan : scan nul (fun c => c == '=') src (ptr + l.length - ptr) ptr = ptr + l.length := by
    rw [Nat.add_sub_cancel_left, scan_eq h, hall]
  have hat : charAt nul src (ptr + l.length) = after.headD nul := by
    have hat : charAt nul src (ptr + (l.takeWhile fun c => !(c == '=')).length) =
        ((l.dropWhile fun c => !(c == '=')) ++ after).headD nul := charAt_takeWhile_length h
    rw [hall] at hat
    rw [hat, List.dropWhile_eq_nil_iff.mpr (List.takeWhile_eq_self_iff.mp hall)]
    rfl
  have hkey : slice src ptr (ptr + l.length) = l := by
    have hkey := slice_takeWhile_length (p := fun c => !(c == '=')) h
    rwa [hall] at hkey
  have hnone : ptr + l.length - (ptr + l.length + 1) = 0 := by omega
  have hempty : ∀ i, strTrim (slice src i (scan nul (fun c => c == '\n' || c == '\r') src 0 i)) =
      [] := by
    intro i
    show strTrim ((src.drop i).take (i - i)) = []
    rw [Nat.sub_self]
    rfl
  unfold parseItem IniState.store
  simp only [hscan, hat, hkey, hnone, hempty]
  by_cases hnext : after.headD nul = '='
  · simp only [hnext, true_and, if_true, ne_eq, ite_not]
  · rw [if_neg fun hboth => hnext hboth.1, if_neg hnext]

lemma parseSection_eq (h : src.drop ptr = '[' :: l ++ after) (hl : '\n' ∉ l) :
    parseSection src ptr (ptr + (l.length + 1)) s =
      { s with sectionName := strTrim (l.takeWhile fun c => c != ']') } := by
  have hdrop : src.drop (ptr + 1) = l ++ after := by
    rw [← List.drop_drop, h]
    rfl
  have hn : ptr + (l.length + 1) - (ptr + 1) = l.length := by omega
  have hstop : (l.takeWhile fun c => !(c == ']' || c == '\n')) = l.takeWhile fun c => c != ']' :=
    takeWhile_or_newline hl
  unfold parseSection
  simp only [hn, scan_eq hdrop, slice_takeWhile_length hdrop, hstop]

variable {line : List Char}

lemma parseLine_of_ne_nil (h : src.drop ptr = line ++ after) (hne : line ≠ []) :
    ∃ ptr', src.drop ptr' = line.dropWhile isBlank ++ after ∧
      parseLine src ptr (ptr + line.length) s =
        if (line.dropWhile isBlank ++ after).headD nul = '[' then
          parseSection src ptr' (ptr' + (line.dropWhile isBlank).length) s
        else if (line.dropWhile isBlank ++ after).headD nul ∉ ['#', ';', '\n', nul] then
          parseItem src ptr' (ptr' + (line.dropWhile isBlank).length) s
        else s := by
  have hblanks : (line.takeWhile fun c => !!isBlank c) = line.takeWhile isBlank :=
    takeWhile_congr fun c _ => Bool.not_not _
  have hscan : scan nul (fun c => !isBlank c) src (ptr + line.length - ptr) ptr =
      ptr + (line.takeWhile isBlank).length := by
    rw [Nat.add_sub_cancel_left, scan_eq h, hblanks]
  have hlen : ptr + line.length =
      ptr + (line.takeWhile isBlank).length + (line.dropWhile isBlank).length := by
    rw [Nat.add_assoc, ← List.length_append, List.takeWhile_append_dropWhile]
  refine ⟨ptr + (line.takeWhile isBlank).length, drop_takeWhile_length h, ?_⟩
  unfold parseLine
  rw [if_pos (Nat.lt_add_of_pos_right (List.length_pos_of_ne_nil hne))]
  simp only [hscan, charAt_takeWhile_length h, ← hlen]

/-- **A line does what its grammar says**, as `StrTrim` trims. -/
theorem parseLine_eq (h : src.drop ptr = line ++ after) (hnl : '\n' ∉ line) (hnul : nul ∉ line)
    (hafter : after.headD nul = '\n' ∨ after.headD nul = nul) :
    parseLine src ptr (ptr + line.length) s = readLine strTrim s line := by
  by_cases hne : line = []
  · rw [hne]
    exact if_neg (lt_irrefl ptr)
  obtain ⟨ptr', hdrop, heq⟩ := parseLine_of_ne_nil (s := s) h hne
  have hsub := (List.dropWhile_suffix (l := line) isBlank).subset
  rw [heq]
  unfold readLine IniLine.parse
  cases hl : line.dropWhile isBlank with
  | nil =>
    rw [List.nil_append]
    rcases hafter with hafter | hafter <;> rw [hafter] <;> rfl
  | cons c cs =>
    rw [hl] at hdrop hsub
    have hnl' : '\n' ∉ c :: cs := fun hmem => hnl (hsub hmem)
    have hc : c ≠ '\n' ∧ c ≠ nul := by
      constructor
      · rintro rfl
        exact hnl' List.mem_cons_self
      · rintro rfl
        exact hnul (hsub List.mem_cons_self)
    show (if c = '[' then _ else if c ∉ ['#', ';', '\n', nul] then _ else s) = _
    dsimp only
    by_cases hopen : c = '['
    · rw [if_pos hopen, if_pos hopen]
      rw [hopen] at hdrop
      exact parseSection_eq hdrop fun hmem => hnl' (List.mem_cons_of_mem _ hmem)
    rw [if_neg hopen, if_neg hopen]
    by_cases hcomment : c = '#' ∨ c = ';'
    · rw [if_pos hcomment, if_neg]
      rcases hcomment with rfl | rfl <;> simp
    rw [if_neg hcomment, if_pos (by simp [hc, not_or.mp hcomment])]
    by_cases hmem : '=' ∈ c :: cs
    · rw [if_pos hmem]
      exact parseItem_of_mem hdrop hnl' hmem
    · rw [if_neg hmem]
      refine (parseItem_of_not_mem hdrop hmem).trans (if_neg ?_)
      rcases hafter with hafter | hafter <;> rw [hafter] <;> decide

end

end PhxQueue.Comm
