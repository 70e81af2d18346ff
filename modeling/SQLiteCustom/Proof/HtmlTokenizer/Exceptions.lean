import Mathlib.Data.List.Sort
import SQLiteCustom.Framework.BinarySearch
import SQLiteCustom.Impl.UnicodeCreate
import SQLiteCustom.Proof.HtmlTokenizer.Pieces

/-!
# The exceptions of a tokenizer

`unicodeAddExceptions` reads the same code points twice, and so it inserts as
many as it has counted (`addExceptions_eq`): the array is filled to its end
and stays sorted, so that the binary search finds what is in it
(`isException_iff`). After `unicodeCreate` a code point is of the other class
exactly when an option says so (`unicodeCreate_exact`).
-/

namespace SQLiteCustom.Proof.HtmlTokenizer

open SQLiteCustom.Impl

/-! ## Sorted insertion -/

variable {c : Nat} {es fs : List Nat}

theorem storeEntry_append (pre : List Nat) (e x : Nat) (fs : List Nat) :
    storeEntry (pre ++ e :: fs) pre.length x = some (pre ++ x :: fs) := by
  rw [storeEntry, if_pos (by simp), List.set_append_right _ _ (Nat.le_refl _), Nat.sub_self, List.set_cons_zero]

theorem findEntry_append (c : Nat) (pre es fs : List Nat) :
    findEntry (pre ++ es ++ fs) c es.length pre.length = some (pre.length + (es.takeWhile (· < c)).length) := by
  induction es generalizing pre with
  | nil => rfl
  | cons e es ih =>
    have hget : (pre ++ (e :: es) ++ fs)[pre.length]? = some e := by simp
    rw [List.length_cons, findEntry, hget]
    dsimp only
    by_cases he : e < c
    · rw [if_pos he, List.takeWhile_cons_of_pos (by simpa using he)]
      have := ih (pre ++ [e])
      rw [List.append_assoc pre [e], List.singleton_append, List.length_append, List.length_singleton] at this
      rw [this, List.length_cons, Nat.add_assoc, Nat.add_comm 1]
    · rw [if_neg he, List.takeWhile_cons_of_neg (by simpa using he)]
      rfl

/-- The entries from `i` on move up by one, into the place of `f`. -/
theorem shiftEntries_append (pre es : List Nat) (f : Nat) (fs : List Nat) :
    ∃ g, shiftEntries pre.length (pre.length + es.length) (pre ++ es ++ f :: fs) =
      some (pre ++ g :: (es ++ fs)) := by
  induction es using List.reverseRecOn generalizing f fs with
  | nil =>
    refine ⟨f, ?_⟩
    rw [List.length_nil, Nat.add_zero, List.append_nil, List.nil_append]
    cases hn : pre.length with
    | zero => rfl
    | succ n => rw [shiftEntries, if_neg (by omega)]
  | append_singleton es e ih =>
    have hget : (pre ++ (es ++ [e]) ++ f :: fs)[pre.length + es.length]? = some e := by
      rw [← List.append_assoc, List.append_assoc, ← List.length_append, List.getElem?_append_right (Nat.le_refl _),
        Nat.sub_self]
      rfl
    have hstore : storeEntry (pre ++ (es ++ [e]) ++ f :: fs) (pre.length + es.length + 1) e =
        some (pre ++ es ++ e :: e :: fs) := by
      have := storeEntry_append (pre ++ es ++ [e]) f e fs
      simp only [List.length_append, List.length_singleton, List.append_assoc, List.singleton_append] at this ⊢
      rw [Nat.add_assoc]
      exact this
    obtain ⟨g, hg⟩ := ih e (e :: fs)
    refine ⟨g, ?_⟩
    rw [List.length_append, List.length_singleton, ← Nat.add_assoc, shiftEntries, if_pos (by omega), hget]
    dsimp only
    rw [hstore]
    dsimp only
    rw [hg, List.append_assoc es, List.singleton_append]

/-- A code point is inserted where it belongs, as long as there is room. -/
theorem addEntry_append (c : Nat) (es : List Nat) (f : Nat) (fs : List Nat) :
    addEntry c es.length (es ++ f :: fs) = some (es.orderedInsert (· ≤ ·) c ++ fs) := by
  have hfind := findEntry_append c [] es (f :: fs)
  rw [List.length_nil, Nat.zero_add, List.nil_append] at hfind
  obtain ⟨g, hshift⟩ := shiftEntries_append (es.takeWhile (· < c)) (es.dropWhile (· < c)) f fs
  rw [← List.length_append, List.takeWhile_append_dropWhile] at hshift
  rw [addEntry, hfind]
  dsimp only
  rw [hshift]
  dsimp only
  rw [storeEntry_append, List.orderedInsert_eq_take_drop]
  simp only [Nat.not_le, List.append_assoc, List.cons_append]

/-! ## The two loops -/

variable {z y : Bytes}

/-- The code points of a string that become exceptions. -/
def exceptions (bAlnum : Bool) (z : Bytes) : List Nat := (codes z).filter (isException bAlnum)

theorem codes_nil : codes [] = [] := by
  rw [codes, decode_nil, List.map_nil]

theorem codes_of_read {z' : Bytes} (h : READ_UTF8 0 z = some (c, z')) : codes z = c :: codes z' := by
  rw [codes, decode_of_read h, List.map_cons]
  rfl

theorem countEntries_eq (bAlnum : Bool) (z y : Bytes) (nEntry : Nat) :
    countEntries bAlnum y.length (z ++ y) nEntry = some (nEntry + (exceptions bAlnum z).length) := by
  induction hn : z.length using Nat.strongRecOn generalizing z nEntry with
  | ind n ih =>
    rw [countEntries, beforeTerm_local]
    cases z with
    | nil =>
      rw [exceptions, codes_nil]
      rfl
    | cons b z =>
      obtain ⟨iCode, z', hread⟩ := exists_READ_UTF8 b z
      have hlen := (suffix_READ_UTF8 hread).2
      rw [if_pos (beforeTerm_cons (Nat.zero_le _))]
      split
      next e => rw [local_READ_UTF8 (stops_length y) hread] at e; cases e
      next e =>
        rw [local_READ_UTF8 (stops_length y) hread] at e
        cases e
        rw [ih _ (hn ▸ hlen) z' _ rfl, exceptions, exceptions, codes_of_read hread, List.filter_cons]
        split
        · rw [List.length_cons, Nat.add_assoc, Nat.add_comm 1]
        · rfl

/-- The entries after those of a string have been added. -/
def addAll (es : List Nat) (cs : List Nat) : List Nat := cs.foldl (fun es c => es.orderedInsert (· ≤ ·) c) es

/-- With room for the exceptions that have been counted, all are added. -/
theorem addEntries_eq (bAlnum : Bool) (z y : Bytes) (es : List Nat) {fs : List Nat}
    (hroom : fs.length = (exceptions bAlnum z).length) :
    addEntries bAlnum y.length (z ++ y) (es ++ fs) es.length =
      some (addAll es (exceptions bAlnum z), (addAll es (exceptions bAlnum z)).length) := by
  induction hn : z.length using Nat.strongRecOn generalizing z es fs with
  | ind n ih =>
    rw [addEntries, beforeTerm_local]
    cases z with
    | nil =>
      rw [exceptions, codes_nil, List.filter_nil, List.length_nil] at hroom
      rw [List.eq_nil_of_length_eq_zero hroom, exceptions, codes_nil, List.append_nil]
      rfl
    | cons b z =>
      obtain ⟨iCode, z', hread⟩ := exists_READ_UTF8 b z
      have hlen := (suffix_READ_UTF8 hread).2
      have hcodes : exceptions bAlnum (b :: z) =
          if isException bAlnum iCode then iCode :: exceptions bAlnum z' else exceptions bAlnum z' := by
        rw [exceptions, codes_of_read hread, List.filter_cons, exceptions]
      rw [if_pos (beforeTerm_cons (Nat.zero_le _))]
      split
      next e => rw [local_READ_UTF8 (stops_length y) hread] at e; cases e
      next e =>
        rw [local_READ_UTF8 (stops_length y) hread] at e
        cases e
        by_cases hex : isException bAlnum iCode = true
        · rw [if_pos hex] at hcodes
          rw [hcodes, List.length_cons] at hroom
          obtain ⟨f, fs, rfl⟩ := List.exists_cons_of_length_eq_add_one hroom
          rw [if_pos hex, addEntry_append]
          have := ih _ (hn ▸ hlen) z' (es.orderedInsert (· ≤ ·) iCode) (Nat.succ.inj hroom) rfl
          rw [List.orderedInsert_length] at this
          rw [hcodes]
          exact this
        · rw [if_neg hex] at hcodes
          rw [hcodes] at hroom
          rw [if_neg hex, ih _ (hn ▸ hlen) z' es hroom rfl, hcodes]

/-- What `unicodeAddExceptions` does to a tokenizer. -/
theorem addExceptions_eq (p : Tokenizer) (bAlnum : Bool) (realloc : Option (Nat → Nat)) (z y : Bytes) :
    unicodeAddExceptions p bAlnum realloc y.length (z ++ y) =
      some (if exceptions bAlnum z ≠ [] ∧ realloc = none then .error SQLITE_NOMEM
        else .ok { p with aiException := (addAll p.aiException.toList (exceptions bAlnum z)).toArray }) := by
  rw [unicodeAddExceptions, countEntries_eq, Nat.zero_add]
  dsimp only
  by_cases hnil : exceptions bAlnum z = []
  · simp [hnil, addAll]
  · have hpos : (exceptions bAlnum z).length ≠ 0 := fun h => hnil (List.eq_nil_of_length_eq_zero h)
    rw [if_pos hpos]
    cases realloc with
    | none => simp [hnil]
    | some contents =>
      have hsize : p.aiException.toList.length = p.aiException.size := Array.length_toList
      have hadd := addEntries_eq bAlnum z y p.aiException.toList
        (show ((List.range (exceptions bAlnum z).length).map contents).length = _ by simp)
      rw [hsize] at hadd
      simp [hadd, hnil]

/-! ## The binary search -/

theorem searchException_eq (p : Tokenizer) (c fuel : Nat) (iLo iHi : Int) :
    p.searchException c fuel iLo iHi = bisect (fun i => compare c (p.aiException.getD i 0)) fuel iLo iHi := by
  induction fuel generalizing iLo iHi with
  | zero => rfl
  | succ fuel ih =>
    rw [Tokenizer.searchException, bisect]
    by_cases hle : iHi ≥ iLo
    · rw [if_pos hle, if_pos hle]
      dsimp only
      rcases Nat.lt_trichotomy c (p.aiException.getD ((iHi + iLo) / 2).toNat 0) with h | h | h
      · rw [Nat.compare_eq_lt.mpr h, if_neg (by omega), if_neg (by omega), ih]
      · rw [Nat.compare_eq_eq.mpr h, if_pos h]
      · rw [Nat.compare_eq_gt.mpr h, if_neg (by omega), if_pos h, ih]
    · rw [if_neg hle, if_neg hle]

theorem getD_le {a : Array Nat} (h : a.toList.Pairwise (· ≤ ·)) {i j : Nat} (hij : i ≤ j) (hj : j < a.size) :
    a.getD i 0 ≤ a.getD j 0 := by
  have hi : i < a.size := by omega
  rw [Array.getD_eq_getD_getElem?, Array.getD_eq_getD_getElem?, Array.getElem?_eq_getElem hi,
    Array.getElem?_eq_getElem hj]
  rcases Nat.lt_or_eq_of_le hij with hlt | rfl
  · exact List.pairwise_iff_getElem.mp h i j hi hj hlt
  · exact Nat.le_refl _

theorem sortedProbe {a : Array Nat} (h : a.toList.Pairwise (· ≤ ·)) (c : Nat) :
    SortedProbe (fun i => compare c (a.getD i 0)) a.size := by
  refine ⟨fun hij hj hlt => ?_, fun hij hj hgt => ?_⟩
  · rw [Nat.compare_eq_lt] at hlt ⊢
    exact Nat.lt_of_lt_of_le hlt (getD_le h hij hj)
  · rw [Nat.compare_eq_gt] at hgt ⊢
    exact Nat.lt_of_le_of_lt (getD_le h hij hj) hgt

/-- The binary search finds what is in a sorted array. -/
theorem isException_iff {p : Tokenizer} (h : p.aiException.toList.Pairwise (· ≤ ·)) (c : Nat) :
    p.unicodeIsException c = true ↔ c ∈ p.aiException.toList := by
  rw [Tokenizer.unicodeIsException, searchException_eq,
    bisect_iff (sortedProbe h c) (Int.le_refl 0) (by omega) (by omega), List.mem_iff_getElem]
  constructor
  · rintro ⟨i, -, hi, heq⟩
    have hlt : i < p.aiException.size := by omega
    rw [Nat.compare_eq_eq, Array.getD_eq_getD_getElem?, Array.getElem?_eq_getElem hlt] at heq
    exact ⟨i, hlt, heq.symm⟩
  · rintro ⟨i, hi, heq⟩
    have hlt : i < p.aiException.size := hi
    refine ⟨i, by omega, by omega, ?_⟩
    rw [Nat.compare_eq_eq, Array.getD_eq_getD_getElem?, Array.getElem?_eq_getElem hlt]
    exact heq.symm

/-! ## The options -/

/-- The name of the options for token characters, or for separators. -/
def optionName (bAlnum : Bool) : Bytes := ascii (if bAlnum then "tokenchars=" else "separators=")

theorem length_optionName (bAlnum : Bool) : (optionName bAlnum).length = 11 := by
  cases bAlnum <;> decide

/-- The argument is an option that lists the code point `c`, as a token
character or as a separator. -/
def Lists (arg : CreateArg) (bAlnum : Bool) (c : Nat) : Prop :=
  ∃ text, arg.string = optionName bAlnum ++ text ∧ c ∈ codes text

theorem lists_iff {arg : CreateArg} {bAlnum : Bool} {text : Bytes} (h : arg.string = optionName bAlnum ++ text)
    (b : Bool) (c : Nat) : Lists arg b c ↔ b = bAlnum ∧ c ∈ codes text := by
  constructor
  · rintro ⟨text', h', hc⟩
    have hlen : (optionName bAlnum).length = (optionName b).length := by
      rw [length_optionName, length_optionName]
    obtain ⟨hname, rfl⟩ := List.append_inj (h.symm.trans h') hlen
    refine ⟨?_, hc⟩
    by_contra hne
    cases b <;> cases bAlnum <;> first | exact hne rfl | exact absurd hname (by decide)
  · rintro ⟨rfl, hc⟩
    exact ⟨text, h, hc⟩

section Create

variable {sb_stemmer_new : Bytes → Option (Bytes → Bytes)} {p : Tokenizer} {arg : CreateArg}

theorem take_option {bAlnum : Bool} (h : arg.string.take 11 = optionName bAlnum) :
    arg.string = optionName bAlnum ++ arg.string.drop 11 := by
  rw [← h, List.take_append_drop]

/-- An option adds its exceptions. -/
theorem addExceptions_option (p : Tokenizer) {bAlnum : Bool} {text : Bytes} (h : arg.string = optionName bAlnum ++ text) :
    unicodeAddExceptions p bAlnum arg.realloc (arg.z.length - strlen arg.z) (arg.z.drop 11) =
      some (if exceptions bAlnum text ≠ [] ∧ arg.realloc = none then .error SQLITE_NOMEM
        else .ok { p with aiException := (addAll p.aiException.toList (exceptions bAlnum text)).toArray }) := by
  have hz : arg.z = optionName bAlnum ++ (text ++ arg.z.drop (strlen arg.z)) := by
    rw [← List.append_assoc, ← h, CreateArg.string, List.take_append_drop]
  have hdrop : arg.z.drop 11 = text ++ arg.z.drop (strlen arg.z) := by
    conv_lhs => rw [hz, ← length_optionName bAlnum, List.drop_left]
  rw [hdrop, ← List.length_drop]
  exact addExceptions_eq p bAlnum arg.realloc text _

/-- Everything that one argument can do. -/
theorem createArg_cases (sb_stemmer_new : Bytes → Option (Bytes → Bytes)) (p : Tokenizer) (arg : CreateArg) :
    (∃ bAlnum text, arg.string = optionName bAlnum ++ text ∧ createArg sb_stemmer_new p arg =
      some (if exceptions bAlnum text ≠ [] ∧ arg.realloc = none then .error SQLITE_NOMEM
        else .ok { p with aiException := (addAll p.aiException.toList (exceptions bAlnum text)).toArray })) ∨
    (∀ bAlnum text, arg.string ≠ optionName bAlnum ++ text) ∧
      ((∃ p', createArg sb_stemmer_new p arg = some (.ok p') ∧ p'.aiException = p.aiException) ∨
        arg.string = [] ∧ createArg sb_stemmer_new p arg = some (.error SQLITE_ERROR)) := by
  have hlen : strlen arg.z ≤ arg.z.length := (List.takeWhile_prefix _).length_le
  have hstring : arg.string.length = strlen arg.z := by
    rw [CreateArg.string, List.length_take, Nat.min_eq_left hlen]
  -- the other arguments are no options
  have hother : ∀ other : Bytes, other.take 11 ≠ optionName true → other.take 11 ≠ optionName false →
      arg.string = other → ∀ bAlnum text, arg.string ≠ optionName bAlnum ++ text := by
    rintro other htrue hfalse rfl bAlnum text h
    have htake : arg.string.take 11 = optionName bAlnum := by
      rw [h, ← length_optionName bAlnum, List.take_left]
    cases bAlnum with
    | true => exact htrue htake
    | false => exact hfalse htake
  rw [createArg]
  by_cases h₁ : strlen arg.z = 19 ∧ arg.string = ascii "remove_diacritics=1"
  · rw [if_pos h₁]
    exact .inr ⟨hother _ (by decide) (by decide) h₁.2, .inl ⟨_, rfl, rfl⟩⟩
  rw [if_neg h₁]
  by_cases h₂ : strlen arg.z = 19 ∧ arg.string = ascii "remove_diacritics=0"
  · rw [if_pos h₂]
    exact .inr ⟨hother _ (by decide) (by decide) h₂.2, .inl ⟨_, rfl, rfl⟩⟩
  rw [if_neg h₂]
  by_cases h₃ : strlen arg.z ≥ 11 ∧ arg.string.take 11 = ascii "tokenchars="
  · have h : arg.string = optionName true ++ arg.string.drop 11 := take_option h₃.2
    rw [if_pos h₃]
    exact .inl ⟨true, _, h, addExceptions_option p h⟩
  rw [if_neg h₃]
  by_cases h₄ : strlen arg.z ≥ 11 ∧ arg.string.take 11 = ascii "separators="
  · have h : arg.string = optionName false ++ arg.string.drop 11 := take_option h₄.2
    rw [if_pos h₄]
    exact .inl ⟨false, _, h, addExceptions_option p h⟩
  rw [if_neg h₄]
  refine .inr ⟨fun bAlnum text h => ?_, ?_⟩
  · have htake : arg.string.take 11 = optionName bAlnum := by
      rw [h, ← length_optionName bAlnum, List.take_left]
    have hge : strlen arg.z ≥ 11 := by
      rw [← hstring, h, List.length_append, length_optionName]
      omega
    cases bAlnum with
    | true => exact h₃ ⟨hge, htake⟩
    | false => exact h₄ ⟨hge, htake⟩
  · by_cases h₅ : strlen arg.z > 0
    · rw [if_pos h₅]
      exact .inl ⟨_, rfl, rfl⟩
    · rw [if_neg h₅]
      exact .inr ⟨List.eq_nil_of_length_eq_zero (by omega), rfl⟩

/-! ## The tokenizer -/

theorem sorted_addAll {es : List Nat} (h : es.Pairwise (· ≤ ·)) (cs : List Nat) : (addAll es cs).Pairwise (· ≤ ·) := by
  induction cs generalizing es with
  | nil => exact h
  | cons c cs ih => exact ih (List.Pairwise.orderedInsert c es h)

theorem mem_addAll (es cs : List Nat) (c : Nat) : c ∈ addAll es cs ↔ c ∈ es ∨ c ∈ cs := by
  induction cs generalizing es with
  | nil => simp [addAll]
  | cons d cs ih =>
    show c ∈ addAll (es.orderedInsert (· ≤ ·) d) cs ↔ _
    rw [ih, List.mem_orderedInsert, List.mem_cons]
    tauto

theorem mem_exceptions (bAlnum : Bool) (text : Bytes) (c : Nat) :
    c ∈ exceptions bAlnum text ↔
      c ∈ codes text ∧ bAlnum ≠ sqlite3FtsUnicodeIsalnum c ∧ sqlite3FtsUnicodeIsdiacritic c = false := by
  rw [exceptions, List.mem_filter, isException, Bool.and_eq_true, bne_iff_ne, Bool.not_eq_true', ne_comm]

/-- The exceptions of a tokenizer are those of the options `opts`. -/
structure Exact (opts : List CreateArg) (p : Tokenizer) : Prop where
  sorted : p.aiException.toList.Pairwise (· ≤ ·)
  mem : ∀ c, c ∈ p.aiException.toList ↔ sqlite3FtsUnicodeIsdiacritic c = false ∧
    ∃ arg ∈ opts, ∃ bAlnum, Lists arg bAlnum c ∧ bAlnum ≠ sqlite3FtsUnicodeIsalnum c

/-- An argument that lists nothing. -/
theorem Exact.keep {opts : List CreateArg} {p' : Tokenizer} (h : Exact opts p) (hp : p'.aiException = p.aiException)
    (harg : ∀ bAlnum c, ¬Lists arg bAlnum c) : Exact (opts ++ [arg]) p' := by
  refine ⟨hp ▸ h.sorted, fun c => ?_⟩
  rw [hp, h.mem c]
  refine and_congr_right fun _ => ⟨fun ⟨a, ha, ho⟩ => ⟨a, List.mem_append_left _ ha, ho⟩, ?_⟩
  rintro ⟨a, ha, bAlnum, hl, hne⟩
  rcases List.mem_append.mp ha with ha | ha
  · exact ⟨a, ha, bAlnum, hl, hne⟩
  · rw [List.mem_singleton.mp ha] at hl
    exact absurd hl (harg bAlnum c)

/-- An option. -/
theorem Exact.add {opts : List CreateArg} (h : Exact opts p) {bAlnum : Bool} {text : Bytes}
    (harg : arg.string = optionName bAlnum ++ text) :
    Exact (opts ++ [arg])
      { p with aiException := (addAll p.aiException.toList (exceptions bAlnum text)).toArray } := by
  refine ⟨sorted_addAll h.sorted _, fun c => ?_⟩
  show c ∈ addAll _ _ ↔ _
  rw [mem_addAll, h.mem c, mem_exceptions]
  constructor
  · rintro (⟨hdia, a, ha, ho⟩ | ⟨hc, hne, hdia⟩)
    · exact ⟨hdia, a, List.mem_append_left _ ha, ho⟩
    · exact ⟨hdia, arg, by simp, bAlnum, (lists_iff harg bAlnum c).mpr ⟨rfl, hc⟩, hne⟩
  · rintro ⟨hdia, a, ha, b, hl, hne⟩
    rcases List.mem_append.mp ha with ha | ha
    · exact .inl ⟨hdia, a, ha, b, hl, hne⟩
    · rw [List.mem_singleton.mp ha] at hl
      obtain ⟨rfl, hc⟩ := (lists_iff harg b c).mp hl
      exact .inr ⟨hc, hne, hdia⟩

/-- The rest of the arguments, after the options `opts`. -/
theorem createArgs_exact (sb_stemmer_new : Bytes → Option (Bytes → Bytes)) (opts args : List CreateArg)
    (h : Exact opts p) :
    ∃ r, createArgs sb_stemmer_new args p = some r ∧
      (∀ rc, r = .error rc → ∃ arg ∈ args,
        rc = SQLITE_NOMEM ∧ arg.realloc = none ∨ rc = SQLITE_ERROR ∧ arg.string = []) ∧
      ∀ p', r = .ok p' → Exact (opts ++ args) p' := by
  induction args generalizing opts p with
  | nil =>
    refine ⟨_, rfl, fun rc e => ?_, fun p' e => ?_⟩
    · cases e
    · cases e
      rwa [List.append_nil]
  | cons arg args ih =>
    rw [createArgs]
    -- an argument that is accepted
    have hnext : ∀ p', Exact (opts ++ [arg]) p' → ∃ r, createArgs sb_stemmer_new args p' = some r ∧
        (∀ rc, r = .error rc → ∃ a ∈ arg :: args,
          rc = SQLITE_NOMEM ∧ a.realloc = none ∨ rc = SQLITE_ERROR ∧ a.string = []) ∧
        ∀ p', r = .ok p' → Exact (opts ++ arg :: args) p' := by
      intro p' hp'
      obtain ⟨r, hr, herror, hok⟩ := ih (opts ++ [arg]) hp'
      rw [List.append_assoc, List.singleton_append] at hok
      refine ⟨r, hr, fun rc e => ?_, hok⟩
      obtain ⟨a, ha, h⟩ := herror rc e
      exact ⟨a, List.mem_cons_of_mem _ ha, h⟩
    rcases createArg_cases sb_stemmer_new p arg with
      ⟨bAlnum, text, hopt, e⟩ | ⟨hno, ⟨p', e, hp'⟩ | ⟨hempty, e⟩⟩
    · rw [e]
      by_cases hfail : exceptions bAlnum text ≠ [] ∧ arg.realloc = none
      · rw [if_pos hfail]
        refine ⟨_, rfl, fun rc e => ?_, fun p' e => by cases e⟩
        cases e
        exact ⟨arg, List.mem_cons_self, .inl ⟨rfl, hfail.2⟩⟩
      · rw [if_neg hfail]
        exact hnext _ (h.add hopt)
    · rw [e]
      refine hnext p' (h.keep hp' fun bAlnum c hl => ?_)
      obtain ⟨text, ht, -⟩ := hl
      exact hno bAlnum text ht
    · rw [e]
      refine ⟨_, rfl, fun rc e => ?_, fun p' e => by cases e⟩
      cases e
      exact ⟨arg, List.mem_cons_self, .inr ⟨rfl, hempty⟩⟩

/-- The creation of a tokenizer stays inside its memory, whatever the
arguments are. If it succeeds, the exceptions are sorted, and a code point is
of another class than `sqlite3FtsUnicodeIsalnum` says exactly when it is no
diacritic and an option wants it to be. It fails only when the allocation for
an option does, or at an empty argument. -/
theorem unicodeCreate_exact (sb_stemmer_new : Bytes → Option (Bytes → Bytes)) (args : List CreateArg) :
    ∃ r, unicodeCreate sb_stemmer_new args = some r ∧
      (∀ rc, r = .error rc → ∃ arg ∈ args,
        rc = SQLITE_NOMEM ∧ arg.realloc = none ∨ rc = SQLITE_ERROR ∧ arg.string = []) ∧
      ∀ p, r = .ok p → p.aiException.toList.Pairwise (· ≤ ·) ∧
        ∀ c, p.unicodeIsAlnum c ≠ sqlite3FtsUnicodeIsalnum c ↔ sqlite3FtsUnicodeIsdiacritic c = false ∧
          ∃ arg ∈ args, ∃ bAlnum, Lists arg bAlnum c ∧ bAlnum ≠ sqlite3FtsUnicodeIsalnum c := by
  obtain ⟨r, hr, herror, hok⟩ := createArgs_exact (p := { bRemoveDiacritic := true }) sb_stemmer_new [] args
    ⟨.nil, fun c => by simp⟩
  refine ⟨r, hr, herror, fun p e => ⟨(hok p e).sorted, fun c => ?_⟩⟩
  rw [← List.nil_append args, ← (hok p e).mem c, ← isException_iff (hok p e).sorted, Tokenizer.unicodeIsAlnum]
  cases sqlite3FtsUnicodeIsalnum c <;> cases p.unicodeIsException c <;> decide

end Create

end SQLiteCustom.Proof.HtmlTokenizer
