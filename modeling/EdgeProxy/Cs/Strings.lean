import EdgeProxy.Base.Error
import EdgeProxy.Codec.Types
import Mathlib.Data.List.DropRight

/-! # Strings

The functions of `util_string.c` that connection strings use. A string is the list of its characters before the
terminator.
-/
namespace EdgeProxy.Cs
open Base List

abbrev Bytes := Codec.Bytes
def ascii (s : String) : Bytes :=
  s.toList.map fun c => c.toNat.toUInt8
def toLower (c : UInt8) : UInt8 :=
  if 65 ≤ c ∧ c ≤ 90 then c + 32 else c
def isDigit (c : UInt8) : Bool :=
  0x30 ≤ c ∧ c ≤ 0x39
def stringIsEqualNocase (val other : Bytes) : Bool :=
  val.length = other.length ∧ val.map toLower = other.map toLower
def stringTrimFront (val trimChars : Bytes) : Bytes :=
  val.dropWhile (trimChars.contains ·)
def stringTrimBack (val trimChars : Bytes) : Bytes :=
  val.rdropWhile (trimChars.contains ·)
def stringConstructTrim (val trimChars : Bytes) : Bytes :=
  stringTrimBack (stringTrimFront val trimChars) trimChars

/-- `string_trim_scheme`. The length of the delimiter is taken to be that of a pointer to it, so that a scheme is not
found near the end. -/
def stringTrimScheme (hostName : Bytes) : Bytes :=
  if hostName.length < 8 then hostName
  else
    match (List.range (hostName.length - 8)).find? fun i => (ascii "://").isPrefixOf (hostName.drop i) with
    | some i => hostName.drop (i + 3)
    | none => hostName

lemma not_mem_of_mem_splitOn {α : Type} [DecidableEq α] {a : α} {text elem : List α} (h : elem ∈ text.splitOn a) :
    a ∉ elem := by
  induction text generalizing elem with
  | nil => simp_all
  | cons b text ih =>
    obtain ⟨first,rest,hsplit⟩ := exists_cons_of_ne_nil (splitOn_ne_nil a text)
    rw [splitOn_cons_eq_if_modifyHead,hsplit,modifyHead_cons] at h
    grind
lemma mem_dropWhile {p c} {val : Bytes} (h : c ∈ val) (hc : p c = false) : c ∈ val.dropWhile p := by
  rw [← takeWhile_append_dropWhile (l := val),mem_append] at h
  refine h.resolve_left fun hmem => ?_
  rw [mem_takeWhile_imp hmem] at hc
  cases hc
lemma mem_stringConstructTrim {val trimChars c} (h : c ∈ val) (hc : c ∉ trimChars) :
    c ∈ stringConstructTrim val trimChars := by
  have hkept : trimChars.contains c = false := by simpa using hc
  rw [stringConstructTrim,stringTrimBack,List.rdropWhile,mem_reverse]
  exact mem_dropWhile (mem_reverse.2 (mem_dropWhile h hkept)) hkept
lemma mem_of_mem_stringTrimScheme {hostName c} (h : c ∈ stringTrimScheme hostName) : c ∈ hostName := by
  unfold stringTrimScheme at h
  split_ifs at h
  · exact h
  · split at h
    · exact mem_of_mem_drop h
    · exact h

variable {σ : Type}

inductive Scan where
  | inKey (key : Bytes)
  | inValue (key value : Bytes)

/-- `string_key_value_parser`: the keys and values between delimiters are passed to the visitor, until it fails. -/
def stringKeyValueParser (visitor : σ → Bytes → Bytes → Except PrxError σ) (delim : UInt8) :
    Bytes → Scan → σ → Except PrxError σ
  | [], .inKey key, ctx => visitor ctx key []
  | [], .inValue key value, ctx => visitor ctx key value
  | c :: rest, .inKey key, ctx =>
    if c = 0x3d then
      -- a key without a value ends the string
      if rest = [] then visitor ctx key [] else stringKeyValueParser visitor delim rest (.inValue key []) ctx
    else stringKeyValueParser visitor delim rest (.inKey (key ++ [c])) ctx
  | c :: rest, .inValue key value, ctx =>
    if c = delim then
      match visitor ctx key value with
      | .error e => .error e
      | .ok ctx => if rest = [] then .ok ctx else stringKeyValueParser visitor delim rest (.inKey []) ctx
    else stringKeyValueParser visitor delim rest (.inValue key (value ++ [c])) ctx

def joinKeyValues (delim : UInt8) : List (Bytes × Bytes) → Bytes
  | [] => []
  | [p] => p.1 ++ 0x3d :: p.2
  | p :: q :: ps => p.1 ++ 0x3d :: (p.2 ++ delim :: joinKeyValues delim (q :: ps))

variable {visitor : σ → Bytes → Bytes → Except PrxError σ} {delim : UInt8}

lemma parser_key {key} (h : 0x3d ∉ key) (rest before : Bytes) (ctx : σ) :
    stringKeyValueParser visitor delim (key ++ rest) (.inKey before) ctx =
      stringKeyValueParser visitor delim rest (.inKey (before ++ key)) ctx := by
  induction key generalizing before with
  | nil => simp
  | cons c key ih =>
    rw [mem_cons,not_or] at h
    rw [cons_append,stringKeyValueParser,if_neg fun hc => h.1 hc.symm,ih h.2]
    simp
lemma parser_value {value} (h : delim ∉ value) (rest key before : Bytes) (ctx : σ) :
    stringKeyValueParser visitor delim (value ++ rest) (.inValue key before) ctx =
      stringKeyValueParser visitor delim rest (.inValue key (before ++ value)) ctx := by
  induction value generalizing before with
  | nil => simp
  | cons c value ih =>
    rw [mem_cons,not_or] at h
    rw [cons_append,stringKeyValueParser,if_neg fun hc => h.1 hc.symm,ih h.2]
    simp
lemma joinKeyValues_cons (p : Bytes × Bytes) (ps : List (Bytes × Bytes)) : joinKeyValues delim (p :: ps) =
      (p.1 ++ 0x3d :: p.2) ++ if ps = [] then [] else delim :: joinKeyValues delim ps := by
  cases ps <;> simp [joinKeyValues]

lemma parser_joinKeyValues (p : Bytes × Bytes) (ps : List (Bytes × Bytes)) (hkey : ∀ q ∈ p :: ps, 0x3d ∉ q.1)
    (hvalue : ∀ q ∈ p :: ps, delim ∉ q.2) {rest} (hrest : rest = [] ∨ rest = [delim]) (ctx : σ) :
    stringKeyValueParser visitor delim (joinKeyValues delim (p :: ps) ++ rest) (.inKey []) ctx =
      (p :: ps).foldlM (fun ctx q => visitor ctx q.1 q.2) ctx := by
  induction ps generalizing p ctx with
  | nil =>
    have hvisit : visitor ctx p.1 p.2 = [p].foldlM (fun ctx q => visitor ctx q.1 q.2) ctx := by simp
    rw [joinKeyValues,append_assoc,parser_key (hkey p mem_cons_self),cons_append,stringKeyValueParser,if_pos rfl,
      nil_append,← hvisit,parser_value (hvalue p mem_cons_self)]
    split
    · rename_i hempty
      rw [(append_eq_nil_iff.1 hempty).1]
    · rcases hrest with rfl | rfl
      · rfl
      · rw [stringKeyValueParser,if_pos rfl,nil_append]
        cases visitor ctx p.1 p.2 <;> rfl
  | cons q ps ih =>
    have hstep := fun ctx => ih q (fun r hr => hkey r (mem_cons_of_mem p hr))
      (fun r hr => hvalue r (mem_cons_of_mem p hr)) ctx
    rw [joinKeyValues,append_assoc,parser_key (hkey p mem_cons_self),cons_append,stringKeyValueParser,if_pos rfl,
      if_neg (by simp),append_assoc,parser_value (hvalue p mem_cons_self),cons_append,stringKeyValueParser,if_pos rfl,
      nil_append,nil_append,foldlM_cons]
    cases visitor ctx p.1 p.2 with
    | error => rfl
    | ok ctx =>
      dsimp only
      rw [if_neg (by cases ps <;> simp [joinKeyValues])]
      exact hstep ctx

/-- The visitor gets the pairs in their order until it fails, with or without a delimiter at the end. -/
theorem parser_visits {pairs : List (Bytes × Bytes)} (hne : pairs ≠ []) (hkeys : ∀ q ∈ pairs, 0x3d ∉ q.1)
    (hvalues : ∀ q ∈ pairs, delim ∉ q.2) (trailing : Bool) (ctx : σ) :
    stringKeyValueParser visitor delim (joinKeyValues delim pairs ++ if trailing then [delim] else []) (.inKey []) ctx =
      pairs.foldlM (fun ctx q => visitor ctx q.1 q.2) ctx := by
  obtain ⟨p,ps,rfl⟩ := exists_cons_of_ne_nil hne
  refine parser_joinKeyValues p ps hkeys hvalues ?_ ctx
  cases trailing with
  | false => exact .inl rfl
  | true => exact .inr rfl

theorem twoPairs_visited :
    let pairs := [(ascii "a",[]),(ascii "b",ascii "c=d")]
    stringKeyValueParser (fun seen key value => .ok (seen ++ [(key,value)])) 59 (joinKeyValues 59 pairs ++ [59])
      (.inKey []) [] = .ok pairs :=
  parser_visits (by decide) (by decide) (by decide) true []

/-- No value that is visited contains the delimiter, so that what holds for such values holds in the end. -/
theorem parser_invariant {P : σ → Prop}
    (hvisit : ∀ {ctx ctx' key value}, delim ∉ value → P ctx → visitor ctx key value = .ok ctx' → P ctx')
    (text : Bytes) (scan : Scan) (hscan : ∀ key value, scan = .inValue key value → delim ∉ value) {ctx ctx'}
    (hctx : P ctx) (h : stringKeyValueParser visitor delim text scan ctx = .ok ctx') : P ctx' := by
  induction text generalizing scan ctx with
  | nil =>
    cases scan with
    | inKey => exact hvisit not_mem_nil hctx h
    | inValue key value => exact hvisit (hscan key value rfl) hctx h
  | cons c text ih =>
    cases scan with
    | inKey =>
      rw [stringKeyValueParser] at h
      split_ifs at h
      · exact hvisit not_mem_nil hctx h
      · exact ih _ (fun _ _ hscan => by cases hscan; exact not_mem_nil) hctx h
      · exact ih _ (fun _ _ hscan => by cases hscan) hctx h
    | inValue key value =>
      have hvalue := hscan key value rfl
      rw [stringKeyValueParser] at h
      by_cases hdelim : c = delim
      · rw [if_pos hdelim] at h
        cases hvisited : visitor ctx key value with
        | error =>
          rw [hvisited] at h
          cases h
        | ok next =>
          have hnext := hvisit hvalue hctx hvisited
          rw [hvisited] at h
          by_cases hend : text = []
          · obtain rfl : next = ctx' := Except.ok.inj ((if_pos hend).symm.trans h)
            exact hnext
          · exact ih _ (fun _ _ hscan => by cases hscan) hnext ((if_neg hend).symm.trans h)
      · rw [if_neg hdelim] at h
        refine ih _ (fun _ _ hscan => ?_) hctx h
        cases hscan
        simpa [hvalue] using fun hc : delim = c => hdelim hc.symm

end EdgeProxy.Cs
