import Mathlib.Data.List.DropRight
import Mathlib.Algebra.Group.Nat.Defs
import EdgeProxy.Cs.Strings

/-! # Strings

Functions of `util_string.c`: `STRING_construct_utf8`, where memory allocation does not fail, and
`string_parse_range_list`, which runs over the string twice: first it checks the list and counts its items, then it
stores them.
-/
namespace EdgeProxy.Util
open List

def utf8Bytes (c : UInt8) : List UInt8 :=
  if c ≤ 0x7f then [c] else [(0xff <<< 6 ||| c.toNat >>> 6).toUInt8,0x80 ||| c &&& 0x3f]

/-- The memory for a string, with its terminator after what was written. -/
structure Utf8Memory where
  alloc : ℕ
  written : List UInt8

def Utf8Memory.string (memory : Utf8Memory) : List UInt8 :=
  (memory.written ++ [0]).takeWhile (· ≠ 0)
def stringConstructUtf8 (buf : List UInt8) : Option Utf8Memory :=
  if buf = [] then none
  else some {
    alloc := buf.length + buf.countP (· > 0x7f)
    written := buf.flatMap utf8Bytes }
def codePoint (c : UInt8) : Char :=
  .ofNat c.toNat

/-- The text of bytes that are code points fills its memory, and tells the bytes. -/
structure EncodesBytes (buf : List UInt8) : Prop where
  encoded : ∃ memory, stringConstructUtf8 buf = some memory ∧ memory.written.length = memory.alloc ∧
    memory.string.toByteArray = (String.ofList (buf.map codePoint)).toUTF8
  unique : ∀ buf', 0 ∉ buf' →
    (stringConstructUtf8 buf').map Utf8Memory.string = (stringConstructUtf8 buf).map Utf8Memory.string → buf' = buf

lemma utf8Bytes_eq (c : UInt8) : utf8Bytes c = String.utf8EncodeChar (codePoint c) ∧ (c ≠ 0 → 0 ∉ utf8Bytes c) ∧
    (codePoint c).toNat = c.toNat := by
  have hall : ∀ n : Fin 256, utf8Bytes (.ofNat n) = String.utf8EncodeChar (codePoint (.ofNat n)) ∧
      ((.ofNat n : UInt8) ≠ 0 → 0 ∉ utf8Bytes (.ofNat n)) ∧ (codePoint (.ofNat n)).toNat = (UInt8.ofNat n).toNat := by
    decide +kernel
  simpa using hall ⟨c.toNat,c.toNat_lt⟩
lemma codePoint_injective : Function.Injective codePoint := by
  intro c c' h
  rw [← UInt8.toNat_inj,← (utf8Bytes_eq c).2.2,h,(utf8Bytes_eq c').2.2]
lemma length_written (buf : List UInt8) : (buf.flatMap utf8Bytes).length = buf.length + buf.countP (· > 0x7f) := by
  induction buf with
  | nil => rfl
  | cons c buf ih =>
    rw [flatMap_cons,length_append,ih,length_cons,countP_cons,utf8Bytes]
    by_cases hc : c ≤ 0x7f
    · rw [if_pos hc,if_neg (by simpa using hc),length_singleton]
      omega
    · rw [if_neg hc,if_pos (by simpa using hc),length_cons,length_singleton]
      omega
lemma string_eq {buf} (hne : buf ≠ []) (h : 0 ∉ buf) :
    (stringConstructUtf8 buf).map Utf8Memory.string = some (buf.flatMap utf8Bytes) := by
  have hzero : ∀ c ∈ buf.flatMap utf8Bytes, (c ≠ 0 : Bool) := by
    intro c hc
    obtain ⟨b,hb,hc⟩ := mem_flatMap.1 hc
    exact decide_eq_true fun h0 => (utf8Bytes_eq b).2.1 (ne_of_mem_of_not_mem hb h) (h0 ▸ hc)
  rw [stringConstructUtf8,if_neg hne,Option.map_some,Utf8Memory.string,takeWhile_append_of_pos hzero]
  simp
lemma toByteArray_flatMap (buf : List UInt8) :
    (buf.flatMap utf8Bytes).toByteArray = (String.ofList (buf.map codePoint)).toUTF8 := by
  rw [String.toUTF8_eq_toByteArray,String.toByteArray_ofList,List.utf8Encode,flatMap_map]
  exact congrArg (fun f => (buf.flatMap f).toByteArray) (funext fun c => (utf8Bytes_eq c).1)

/-- The text of bytes is their encoding. -/
theorem encodesBytes {buf : List UInt8} (hne : buf ≠ []) (h : 0 ∉ buf) : EncodesBytes buf := by
  have hstring := string_eq hne h
  refine ⟨⟨_,if_neg hne,length_written buf,?_⟩,fun buf' h' heq => ?_⟩
  · rw [stringConstructUtf8,if_neg hne,Option.map_some,Option.some_inj] at hstring
    rw [hstring,toByteArray_flatMap]
  · rw [hstring] at heq
    by_cases hne' : buf' = []
    · rw [stringConstructUtf8,if_pos hne'] at heq
      cases heq
    · rw [string_eq hne' h',Option.some_inj] at heq
      have htext := congrArg List.toByteArray heq
      rw [toByteArray_flatMap,toByteArray_flatMap] at htext
      exact codePoint_injective.list_map (String.ofList_inj.1 (String.toByteArray_inj.1 htext))

theorem encodesBytes_high : EncodesBytes [0x41,0xe9] :=
  encodesBytes (by decide) (by decide)

/-- There is no text of no bytes. -/
theorem empty_not_encodesBytes : ¬EncodesBytes [] :=
  fun ⟨⟨_,h,_⟩,_⟩ => nomatch h

open Base Cs

def decimal (digits : Bytes) : ℕ :=
  digits.foldl (fun n c => 10 * n + (c.toNat - 0x30)) 0
def isSpace (c : UInt8) : Bool :=
  c ∈ [0x20,0x09,0x0a,0x0b,0x0c,0x0d]
def splitSign : Bytes → Bool × Bytes
  | 0x2d :: s => (true,s)
  | 0x2b :: s => (false,s)
  | s => (false,s)

/-- `strtol` with base 10 where a `long` has 64 bits: the value, and the string after blanks, a sign and digits. Without
a digit the value is zero and the whole string is left. -/
def strtol (s : Bytes) : Int64 × Bytes :=
  let (negative,rest) := splitSign (s.dropWhile isSpace)
  let value := decimal (rest.takeWhile isDigit)
  if rest.takeWhile isDigit = [] then (0,s)
  else (if negative then .ofInt (-min value (2 ^ 63)) else .ofNat (min value (2 ^ 63 - 1)),rest.dropWhile isDigit)

lemma splitSign_suffix (s : Bytes) : (splitSign s).2 <:+ s := by
  unfold splitSign
  split
  · exact suffix_cons _ _
  · exact suffix_cons _ _
  · exact suffix_rfl
lemma strtol_suffix (s : Bytes) : (strtol s).2 <:+ s := by
  unfold strtol
  rw [apply_ite Prod.snd]
  dsimp only
  split_ifs
  · exact suffix_rfl
  · exact (dropWhile_suffix _).trans ((splitSign_suffix _).trans (dropWhile_suffix _))

variable {rest : Bytes}

lemma takeWhile_digits {digits : Bytes} (hdigits : ∀ c ∈ digits, isDigit c) (hrest : ∀ c ∈ rest.head?, ¬isDigit c) :
    (digits ++ rest).takeWhile isDigit = digits ∧ (digits ++ rest).dropWhile isDigit = rest := by
  rw [takeWhile_append_of_pos hdigits,dropWhile_append_of_pos hdigits]
  cases rest with
  | nil => simp
  | cons c =>
    have hc : ¬isDigit c := hrest c rfl
    rw [takeWhile_cons_of_neg hc,dropWhile_cons_of_neg hc,append_nil]
    exact ⟨rfl,rfl⟩
lemma not_isDigit {c : UInt8} (h : isSpace c) : ¬isDigit c := by
  simp only [isSpace,decide_eq_true_eq,mem_cons,not_mem_nil,or_false] at h
  rcases h with rfl | rfl | rfl | rfl | rfl | rfl <;> decide
lemma strtol_number {digits : Bytes} (hne : digits ≠ []) (hdigits : ∀ c ∈ digits, isDigit c)
    (hrest : ∀ c ∈ rest.head?, ¬isDigit c) (hvalue : decimal digits < 2 ^ 63) :
    strtol (digits ++ rest) = (.ofNat (decimal digits),rest) := by
  obtain ⟨htake,hdrop⟩ := takeWhile_digits hdigits hrest
  obtain ⟨c,t,rfl⟩ := exists_cons_of_ne_nil hne
  have hc := hdigits c mem_cons_self
  have hspace : ((c :: t) ++ rest).dropWhile isSpace = (c :: t) ++ rest :=
    dropWhile_cons_of_neg fun h => not_isDigit h hc
  have hsign : splitSign ((c :: t) ++ rest) = (false,(c :: t) ++ rest) := by
    unfold splitSign
    split
    · next h => cases h; cases hc
    · next h => cases h; cases hc
    · rfl
  rw [strtol,hspace,hsign]
  dsimp only
  rw [htake,hdrop,if_neg hne,if_neg (by decide),Nat.min_eq_left (by omega)]
lemma strtol_spaces {s : Bytes} (h : ∀ c ∈ s, c = 0x20) : strtol s = (0,s) := by
  have hspace : s.dropWhile isSpace = [] := by
    rw [dropWhile_eq_nil_iff]
    intro c hc
    rw [h c hc]
    rfl
  rw [strtol,hspace]
  rfl

/-- What the body of the inner loop finds: the tuple it stores, and whether there was an item at all. -/
structure Item where
  low : Int32
  high : Int32
  found : Bool

def Item.ofEnds (low high : Int32) (found : Bool) : Item :=
  { low := if high > low then low else high, high := if high > low then high else low, found }
def parseItem (s : Bytes) : Option (Item × Bytes) :=
  let (low,rest) := strtol s
  match rest with
  | 0x2d :: next =>
    let (high,rest) := strtol next
    if rest = next then none else some (.ofEnds low.toInt32 high.toInt32 true,rest)
  | _ => some (.ofEnds low.toInt32 low.toInt32 (rest ≠ s),rest)

lemma parseItem_suffix {s rest item} (h : parseItem s = some (item,rest)) : rest <:+ s := by
  have hlow := strtol_suffix s
  unfold parseItem at h
  dsimp only at h
  split at h
  · next next hrest =>
    split at h
    · cases h
    · cases h
      rw [hrest] at hlow
      exact (strtol_suffix next).trans ((suffix_cons _ _).trans hlow)
  · cases h
    exact hlow

/-- The inner loop: all tuples of the list, or `none` if the list is not valid. Spaces may stand only at the end. -/
def parseItems (s : Bytes) : Option (List Item) :=
  match _hitem : parseItem s with
  | none => none
  | some (item,[]) => some [item]
  | some (item,c :: next) =>
    if c = 0x20 then
      if next.dropWhile (· = 0x20) = [] then some [item] else none
    else if c ≠ 0x3b ∨ ¬item.found then none
    else (parseItems next).map (item :: ·)
termination_by s.length
decreasing_by
  have hlength := (parseItem_suffix _hitem).length_le
  rw [length_cons] at hlength
  omega

/-- The tuples that `string_parse_range_list` returns. The second run stores a tuple for each turn of its loop, while
memory was allocated for the items that were found: `overflow` tells that it stored more. -/
structure RangeList where
  tuples : List Int32
  len : ℕ
  overflow : Bool

/-- `string_parse_range_list` for a caller that wants the tuples. `allocated` is the result of `mem_alloc`. -/
def stringParseRangeList (s : Bytes) (allocated : Bool) : Except PrxError RangeList :=
  match parseItems s with
  | none => .error .invalidFormat
  | some items =>
    let index := (items.filter Item.found).length
    if index = 0 then .ok { tuples := [], len := 0, overflow := false }
    else if ¬allocated then .error .outOfMemory
    else .ok {
      tuples := (items.flatMap fun item => [item.low,item.high]).take (2 * index)
      len := index
      overflow := items.length > index }

structure Numeral where
  digits : Bytes
  nonempty : digits ≠ []
  valid : digits.all isDigit

def Numeral.value (n : Numeral) : ℕ :=
  decimal n.digits

inductive Range where
  | single (n : Numeral)
  | span (first last : Numeral)

namespace Range

def text : Range → Bytes
  | single n => n.digits
  | span first last => first.digits ++ 0x2d :: last.digits
def low : Range → ℕ
  | single n => n.value
  | span first last => min first.value last.value
def high : Range → ℕ
  | single n => n.value
  | span first last => max first.value last.value

lemma low_le_high (r : Range) : r.low ≤ r.high := by
  cases r with
  | single => exact Nat.le_refl _
  | span => exact Nat.le_trans (Nat.min_le_left _ _) (Nat.le_max_left _ _)
def item (r : Range) : Item where
  low := .ofNat r.low
  high := .ofNat r.high
  found := true

end Range

def rangeText : List Range → Bytes
  | [] => []
  | [r] => r.text
  | r :: rest => r.text ++ 0x3b :: rangeText rest

lemma Numeral.parse (n : Numeral) (h : n.value < 2 ^ 31) (hrest : ∀ c ∈ rest.head?, ¬isDigit c) :
    strtol (n.digits ++ rest) = (.ofNat n.value,rest) :=
  strtol_number n.nonempty (all_eq_true.1 n.valid) hrest (Nat.lt_trans h (by decide))
lemma ofEnds_ofNat {a b} (ha : a < 2 ^ 31) (hb : b < 2 ^ 31) (found : Bool) :
    Item.ofEnds (.ofNat a) (.ofNat b) found = { low := .ofNat (min a b), high := .ofNat (max a b), found } := by
  have hlt : Int32.ofNat a < .ofNat b ↔ a < b := by
    rw [Int32.lt_iff_toInt_lt,Int32.toInt_ofNat_of_lt ha,Int32.toInt_ofNat_of_lt hb]
    omega
  unfold Item.ofEnds
  by_cases h : a < b
  · rw [if_pos (hlt.2 h),if_pos (hlt.2 h),Nat.min_eq_left (Nat.le_of_lt h),Nat.max_eq_right (Nat.le_of_lt h)]
  · have hle : b ≤ a := Nat.le_of_not_lt h
    rw [if_neg (mt hlt.1 h),if_neg (mt hlt.1 h),Nat.min_eq_right hle,Nat.max_eq_left hle]
lemma Numeral.rest_ne (n : Numeral) : rest ≠ n.digits ++ rest := by
  intro h
  exact n.nonempty (self_eq_append_left.1 h)

open Range

lemma parseItem_text (r : Range) (fits : r.high < 2 ^ 31) (hrest : ∀ c ∈ rest.head?, c = 0x3b ∨ c = 0x20) :
    parseItem (r.text ++ rest) = some (r.item,rest) := by
  have hstop : ∀ c ∈ rest.head?, ¬isDigit c := by
    intro c hc
    rcases hrest c hc with rfl | rfl <;> decide
  unfold parseItem
  cases r with
  | single n =>
    have hvalue : n.value < 2 ^ 31 := fits
    have hparse : strtol (n.digits ++ rest) = (.ofNat n.value,rest) := n.parse hvalue hstop
    have hitem : .ofEnds (.ofNat n.value) (.ofNat n.value) true = (single n).item := by
      rw [ofEnds_ofNat hvalue hvalue,Nat.min_self,Nat.max_self]
      rfl
    simp only [text,hparse]
    split
    · exact absurd (hrest 0x2d rfl) (by decide)
    · simp [n.rest_ne,hitem]
  | span first last =>
    have hfirst : first.value < 2 ^ 31 := Nat.lt_of_le_of_lt (Nat.le_max_left _ _) fits
    have hlast : last.value < 2 ^ 31 := Nat.lt_of_le_of_lt (Nat.le_max_right _ _) fits
    have htext : (span first last).text ++ rest = first.digits ++ 0x2d :: (last.digits ++ rest) := by
      simp [text]
    have hdash : ∀ c ∈ (0x2d :: (last.digits ++ rest)).head?, ¬isDigit c := by
      rintro c ⟨⟩
      decide
    simp only [htext,first.parse hfirst hdash,last.parse hlast hstop,Int64.toInt32_ofNat']
    rw [if_neg last.rest_ne,ofEnds_ofNat hfirst hlast]
    rfl

lemma parseItems_last {s spaces item} (h : parseItem s = some (item,spaces)) (hspaces : ∀ c ∈ spaces, c = 0x20) :
    parseItems s = some [item] := by
  rw [parseItems]
  split
  · next h' => cases h'.symm.trans h
  · next h' =>
    cases h'.symm.trans h
    rfl
  · next h' =>
    cases h'.symm.trans h
    rw [forall_mem_cons] at hspaces
    rw [if_pos hspaces.1,if_pos (dropWhile_eq_nil_iff.2 fun c hc => decide_eq_true (hspaces.2 c hc))]
lemma parseItems_cons {s next item} (h : parseItem s = some (item,0x3b :: next))
    (found : item.found) : parseItems s = (parseItems next).map (item :: ·) := by
  rw [parseItems]
  split
  · next h' => cases h'.symm.trans h
  · next h' => cases h'.symm.trans h
  · next h' =>
    cases h'.symm.trans h
    simp [found]

lemma parseItems_rangeText {ranges spaces} (hne : ranges ≠ []) (fits : ∀ r ∈ ranges, r.high < 2 ^ 31)
    (hspaces : ∀ c ∈ spaces, c = 0x20) : parseItems (rangeText ranges ++ spaces) = some (ranges.map item) := by
  induction ranges with
  | nil => exact absurd rfl hne
  | cons r ranges ih =>
    have hr := fits r mem_cons_self
    cases ranges with
    | nil =>
      exact parseItems_last (parseItem_text r hr fun c hc => .inr (hspaces c (mem_of_mem_head? hc))) hspaces
    | cons r' ranges =>
      have hsep : ∀ c ∈ (0x3b :: (rangeText (r' :: ranges) ++ spaces)).head?, c = 0x3b ∨ c = 0x20 := by
        rintro c ⟨⟩
        exact .inl rfl
      change parseItems (r.text ++ 0x3b :: rangeText (r' :: ranges) ++ spaces) = _
      rw [append_assoc,cons_append]
      have htail := ih (cons_ne_nil _ _) fun s hs => fits s (mem_cons_of_mem _ hs)
      rw [parseItems_cons (parseItem_text r hr hsep) rfl,htail]
      rfl

lemma length_tuples (items : List Item) :
    (items.flatMap fun item => [item.low,item.high]).length = 2 * items.length := by
  induction items with
  | nil => rfl
  | cons =>
    rw [flatMap_cons,length_append]
    simp only [length_cons,length_nil]
    omega

lemma parseItem_spaces {spaces} (hspaces : ∀ c ∈ spaces, c = 0x20) :
    parseItem spaces = some (.ofEnds 0 0 false,spaces) := by
  rw [parseItem,strtol_spaces hspaces]
  dsimp only
  split
  · exact absurd (hspaces 0x2d mem_cons_self) (by decide)
  · simp
lemma stringParseRangeList_spaced {ranges spaces} (fits : ∀ r ∈ ranges, r.high < 2 ^ 31)
    (hspaces : ∀ c ∈ spaces, c = 0x20) : stringParseRangeList (rangeText ranges ++ spaces) true = .ok {
      tuples := ranges.flatMap fun r => [.ofNat r.low,.ofNat r.high]
      len := ranges.length
      overflow := false } := by
  rw [stringParseRangeList]
  by_cases hne : ranges = []
  · rw [hne,rangeText,nil_append,parseItems_last (parseItem_spaces hspaces) hspaces]
    rfl
  · have hfilter : (ranges.map item).filter Item.found = ranges.map item := by
      rw [filter_eq_self]
      intro item hitem
      obtain ⟨r,_,rfl⟩ := mem_map.1 hitem
      rfl
    have hlength : (ranges.map item |>.flatMap fun item => [item.low,item.high]).length = 2 * ranges.length := by
      rw [length_tuples,length_map]
    have hcount : ranges.length ≠ 0 := mt length_eq_zero_iff.1 hne
    rw [parseItems_rangeText hne fits hspaces]
    dsimp only
    rw [hfilter,length_map,if_neg hcount,take_of_length_le (Nat.le_of_eq hlength),flatMap_map]
    simp [item]

end EdgeProxy.Util
