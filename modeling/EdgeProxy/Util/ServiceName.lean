import EdgeProxy.Cs.Strings

/-! # Full service names

The parser of `util_string.c` beside the one of `DnsServiceRecord.cs`, with an absent part as an empty one. They agree
on names without a type only, and no record with a name or a type is parsed from its own text.
-/
namespace EdgeProxy.Util
open List

structure ServiceRecord where
  name : List Char
  type : List Char
  domain : List Char
deriving DecidableEq

/-- The parts before and after the first dot, not at the start, that a character with `p` follows. -/
def splitDot (p : Char → Bool) : List Char → Option (List Char × List Char)
  | [] => none
  | c :: s =>
    if s.head? = some '.' ∧ s.tail.head?.any p then some ([c],s.tail)
    else (splitDot p s).map fun (before,after) => (c :: before,after)

def parseType (name rest : List Char) : ServiceRecord :=
  match splitDot (· ≠ '_') rest with
  | some (type,domain) => ⟨name,type,domain⟩
  | none => ⟨name,rest,"local".toList⟩
def stringParseServiceFullName (fullName : List Char) : ServiceRecord :=
  let fullName := fullName.rdropWhile (· = '.')
  if fullName.head? = some '_' then parseType [] fullName
  else
    match splitDot (· = '_') fullName with
    | some (name,rest) => parseType name rest
    | none => ⟨[],[],fullName⟩
def isType (label : List Char) : Bool :=
  label.head? = some '_'

/-- `DnsServiceRecord.Parse`, in which the trimmed domain is not assigned. -/
def dnsParse (fullString : List Char) : ServiceRecord :=
  let labels := fullString.splitOn '.'
  let rest := labels.dropWhile (!isType ·)
  let name := intercalate ['.'] (labels.takeWhile (!isType ·))
  let type := ((rest.takeWhile isType).flatMap (· ++ ['.'])).rdropWhile (· = '.')
  match rest.dropWhile isType with
  | [] => ⟨[],type,name⟩
  | domain => ⟨name,type,domain.flatMap (· ++ ['.'])⟩

def ServiceRecord.fullString (r : ServiceRecord) : List Char :=
  let fullName := (if r.name = [] then [] else r.name ++ ['.']) ++ if r.type = [] then [] else r.type ++ ['.']
  fullName ++ if r.domain = [] ∧ fullName ≠ [] then "local".toList else r.domain

def Untyped (s : List Char) : Prop :=
  ∀ label ∈ s.splitOn '.', !isType label

variable {s : List Char} {p : Char → Bool}

lemma splitDot_eq_some {before after} (h : splitDot p s = some (before,after)) :
    before ≠ [] ∧ after ≠ [] ∧ after <:+ s := by
  induction s generalizing before with
  | nil => cases h
  | cons c s ih =>
    rw [splitDot] at h
    split_ifs at h with hdot
    · cases h
      refine ⟨cons_ne_nil _ _,fun hnil => ?_,(tail_suffix s).trans (suffix_cons c s)⟩
      simp [hnil] at hdot
    · obtain ⟨⟨before',_⟩,hsplit,heq⟩ := Option.map_eq_some_iff.1 h
      cases heq
      obtain ⟨-,hafter,hsuffix⟩ := ih hsplit
      exact ⟨cons_ne_nil _ _,hafter,hsuffix.trans (suffix_cons c s)⟩

lemma parseType_domain {name : List Char} (hs : s.getLast? ≠ some '.') :
    (parseType name s).domain ≠ [] ∧ (parseType name s).domain.getLast? ≠ some '.' := by
  unfold parseType
  split
  · next h =>
    obtain ⟨-,hafter,t,rfl⟩ := splitDot_eq_some h
    rw [getLast?_append_of_ne_nil _ hafter] at hs
    exact ⟨hafter,hs⟩
  · exact ⟨show "local".toList ≠ [] by decide,show "local".toList.getLast? ≠ some '.' by decide⟩
lemma parseType_name {name : List Char} : (parseType name s).name = name := by
  unfold parseType
  split <;> rfl

lemma trimmed_iff : s.rdropWhile (· = '.') = s ↔ s.getLast? ≠ some '.' := by
  rcases eq_nil_or_concat' s with rfl | ⟨init,last,rfl⟩ <;> simp

/-- What the native parser finds. -/
lemma service_domain (s : List Char) : (stringParseServiceFullName s).domain.getLast? ≠ some '.' ∧
    ((stringParseServiceFullName s).type ≠ [] → (stringParseServiceFullName s).name = [] →
      s.head? = some '_' ∧ (stringParseServiceFullName s).domain ≠ []) := by
  have htrim := trimmed_iff.1 (rdropWhile_idempotent (· = '.') s)
  unfold stringParseServiceFullName
  dsimp only
  split_ifs with hhead
  · obtain ⟨hne,hlast⟩ := parseType_domain htrim
    refine ⟨hlast,fun _ _ => ⟨?_,hne⟩⟩
    obtain ⟨t,ht⟩ := rdropWhile_prefix (· = '.') s
    rw [← ht,head?_append,hhead]
    rfl
  · split
    · next h =>
      obtain ⟨hbefore,hafter,t,ht⟩ := splitDot_eq_some h
      rw [← ht,getLast?_append_of_ne_nil _ hafter] at htrim
      refine ⟨(parseType_domain htrim).2,fun _ hname => ?_⟩
      rw [parseType_name] at hname
      exact absurd hname hbefore
    · exact ⟨htrim,fun h => absurd rfl h⟩

lemma flatMap_labels {labels : List (List Char)} (h : labels ≠ []) :
    labels.flatMap (· ++ ['.']) = intercalate ['.'] labels ++ ['.'] := by
  induction labels with
  | nil => exact absurd rfl h
  | cons label labels ih =>
    cases labels with
    | nil => simp
    | cons next labels => rw [flatMap_cons,ih (cons_ne_nil _ _)]; simp [intercalate]

/-- What the parser makes of a name that has a type. -/
structure Typed (s : List Char) (pre types dom : List (List Char)) (type : List Char) : Prop where
  labels : s ++ ['.'] = (pre ++ types ++ dom).flatMap (· ++ ['.'])
  untyped : ∀ label ∈ pre, !isType label
  types : types.flatMap (· ++ ['.']) = type ++ ['.'] ∧ type.head? = some '_'
  parsed : dnsParse s = if dom = [] then ⟨[],type,intercalate ['.'] pre⟩
    else ⟨intercalate ['.'] pre,type,dom.flatMap (· ++ ['.'])⟩

lemma dnsParse_untyped (h : Untyped s) : dnsParse s = ⟨[],[],s⟩ := by
  simp [dnsParse,takeWhile_eq_self_iff.2 h,dropWhile_eq_nil_iff.2 h]

lemma trim_types {types : List (List Char)} (hne : types ≠ []) (h : ∀ label ∈ types, isType label ∧ '.' ∉ label) :
    (types.flatMap (· ++ ['.'])).rdropWhile (· = '.') = intercalate ['.'] types ∧
      (intercalate ['.'] types).head? = some '_' := by
  constructor
  · obtain ⟨init,last,rfl⟩ := (eq_nil_or_concat' types).resolve_left hne
    have htext : intercalate ['.'] (init ++ [last]) = init.flatMap (· ++ ['.']) ++ last := by
      refine append_cancel_right ((flatMap_labels hne).symm.trans ?_)
      simp
    obtain ⟨htype,hdot⟩ := h last (by simp)
    have hlast : last ≠ [] := by
      rintro rfl
      cases htype
    rw [flatMap_labels hne,rdropWhile_concat_pos _ _ _ (by decide),trimmed_iff,htext,getLast?_append_of_ne_nil _ hlast]
    exact fun heq => hdot (mem_of_getLast? heq)
  · obtain ⟨label,labels,rfl⟩ := exists_cons_of_ne_nil hne
    obtain ⟨t,rfl⟩ := head?_eq_some_iff.1 (of_decide_eq_true (h label mem_cons_self).1)
    cases labels <;> simp [intercalate]

lemma exists_typed (h : ¬Untyped s) : ∃ pre types dom type, Typed s pre types dom type := by
  obtain ⟨label,rest,hrest⟩ := exists_cons_of_ne_nil (mt dropWhile_eq_nil_iff.1 h)
  have hlabel : isType label := by
    have := head_dropWhile_not (fun label => !isType label) (l := s.splitOn '.') (by simp [hrest])
    simpa [hrest] using this
  have hsplit : s.splitOn '.' = (s.splitOn '.').takeWhile (!isType ·) ++ (label :: rest).takeWhile isType ++
      (label :: rest).dropWhile isType := by
    rw [append_assoc,takeWhile_append_dropWhile,← hrest,takeWhile_append_dropWhile]
  have hne : (label :: rest).takeWhile isType ≠ [] := by simp [hlabel]
  obtain ⟨htrim,hhead⟩ := trim_types hne fun l hl => ⟨mem_takeWhile_imp hl,Cs.not_mem_of_mem_splitOn (by
    rw [hsplit]
    exact mem_append_left _ (mem_append_right _ hl))⟩
  refine ⟨(s.splitOn '.').takeWhile (!isType ·),(label :: rest).takeWhile isType,(label :: rest).dropWhile isType,_,?_,
    fun _ => mem_takeWhile_imp,⟨flatMap_labels hne,hhead⟩,?_⟩
  · rw [← hsplit,flatMap_labels (splitOn_ne_nil _ _),intercalate_splitOn]
  · simp only [dnsParse,hrest,htrim]
    split
    · next hdom => rw [if_pos hdom]
    · next hdom => rw [if_neg hdom]

lemma Typed.pre_eq_nil {pre types dom type} (h : Typed s pre types dom type) (hhead : s.head? = some '_') :
    pre = [] := by
  cases pre with
  | nil => rfl
  | cons label pre =>
    have hlabel := h.untyped label mem_cons_self
    have hlabels := congrArg head? h.labels
    cases label <;> simp_all [isType,head?_append]
    exact hlabel hlabels.symm

lemma exists_isType (s : List Char) : ∃ label labels, ('_' :: s).splitOn '.' = label :: labels ∧ isType label := by
  obtain ⟨label,labels,h⟩ := exists_cons_of_ne_nil (splitOn_ne_nil '.' s)
  exact ⟨'_' :: label,labels,by rw [splitOn_cons_eq_if_modifyHead,h]; rfl,rfl⟩

lemma splitDot_of_untyped {s} (h : ∀ label ∈ (s.splitOn '.').tail, !isType label) : splitDot (· = '_') s = none := by
  induction s with
  | nil => rfl
  | cons c s ih =>
    have htail : ∀ label ∈ (s.splitOn '.').tail, !isType label := by
      rw [splitOn_cons_eq_if_modifyHead] at h
      split_ifs at h
      · exact fun label hlabel => h label (mem_of_mem_tail hlabel)
      · rwa [tail_modifyHead] at h
    rw [splitDot,if_neg,ih htail]
    · rfl
    rintro ⟨hdot,htype⟩
    obtain ⟨t,rfl⟩ := head?_eq_some_iff.1 hdot
    obtain ⟨t,rfl⟩ : ∃ u, t = '_' :: u := by cases t <;> simp_all
    obtain ⟨label,labels,hsplit,hlabel⟩ := exists_isType t
    have := htail label (by rw [splitOn_cons_eq_if_modifyHead,if_pos (beq_self_eq_true _),hsplit]; exact mem_cons_self)
    simp [hlabel] at this

lemma stringParse_untyped (h : Untyped s) (hdot : s.getLast? ≠ some '.') :
    stringParseServiceFullName s = ⟨[],[],s⟩ := by
  have htrim := trimmed_iff.2 hdot
  have hhead : s.head? ≠ some '_' := by
    intro hhead
    obtain ⟨t,rfl⟩ := head?_eq_some_iff.1 hhead
    obtain ⟨label,labels,hsplit,hlabel⟩ := exists_isType t
    simp [Untyped,hsplit,hlabel] at h
  have hsplit := splitDot_of_untyped fun label hlabel => h label (mem_of_mem_tail hlabel)
  simp only [stringParseServiceFullName,htrim,hsplit,if_neg hhead]

/-- The text of a record with a type has a type, and its domain is parsed with one more dot. -/
lemma Typed.not_parsed {r : ServiceRecord} {pre types dom type} (h : Typed r.fullString pre types dom type) :
    dnsParse r.fullString ≠ r := by
  intro heq
  have hparsed := h.parsed
  rw [heq] at hparsed
  have htype : r.type = type := by
    rw [hparsed]
    split_ifs <;> rfl
  have hne : type ≠ [] := by
    rintro rfl
    cases h.types.2
  have hfull : r.fullString = (if r.name = [] then [] else r.name ++ ['.']) ++ (type ++ ['.']) ++
      if r.domain = [] then "local".toList else r.domain := by
    simp [ServiceRecord.fullString,htype,hne]
  have hlength := congrArg length h.labels
  rw [hfull] at hlength
  simp only [flatMap_append,length_append,h.types.1] at hlength
  -- Without a domain in the text `Parse` leaves the name empty, so that the text starts with its type.
  have hdom : dom ≠ [] := by
    intro hdom
    rw [if_pos hdom] at hparsed
    have hname : r.name = [] := congrArg ServiceRecord.name hparsed
    have hpre := h.pre_eq_nil (by rw [hfull,if_pos hname]; simp [h.types.2])
    simp only [hdom,hpre,flatMap_nil,length_singleton,length_nil] at hlength
    omega
  rw [if_neg hdom] at hparsed
  have hname : r.name = intercalate ['.'] pre := congrArg ServiceRecord.name hparsed
  have hdomain : r.domain = dom.flatMap (· ++ ['.']) := congrArg ServiceRecord.domain hparsed
  have hpos : r.domain ≠ [] := by simp [hdomain,flatMap_labels hdom]
  rw [if_neg hpos,hdomain] at hlength
  split_ifs at hlength with hempty
  · have hpre := h.pre_eq_nil (by rw [hfull,if_pos hempty]; simp [h.types.2])
    simp [hpre] at hlength
  · have hpre : pre ≠ [] := by
      rintro rfl
      exact hempty hname
    rw [flatMap_labels hpre,← hname] at hlength
    simp only [length_append,length_singleton] at hlength
    omega

/-- A record is parsed from its text exactly if it is a domain without types, and the parsers agree on a text exactly if
it has no type and does not end in a dot. -/
theorem dnsParse_iff (r : ServiceRecord) (s : List Char) :
    (dnsParse r.fullString = r ↔ r.name = [] ∧ r.type = [] ∧ Untyped r.domain) ∧
      (dnsParse s = stringParseServiceFullName s ↔ Untyped s ∧ s.getLast? ≠ some '.') := by
  constructor
  · constructor
    · intro heq
      by_cases hu : Untyped r.fullString
      · rw [dnsParse_untyped hu] at heq
        rw [← heq]
        exact ⟨rfl,rfl,hu⟩
      · obtain ⟨pre,types,dom,type,h⟩ := exists_typed hu
        exact absurd heq h.not_parsed
    · obtain ⟨name,type,domain⟩ := r
      rintro ⟨rfl,rfl,h⟩
      have hfull : ServiceRecord.fullString ⟨[],[],domain⟩ = domain := by simp [ServiceRecord.fullString]
      rw [hfull]
      exact dnsParse_untyped h
  · constructor
    · intro heq
      obtain ⟨hlast,htyped⟩ := service_domain s
      rw [← heq] at hlast htyped
      by_cases hu : Untyped s
      · rw [dnsParse_untyped hu] at hlast
        exact ⟨hu,hlast⟩
      · obtain ⟨pre,types,dom,type,h⟩ := exists_typed hu
        have htype : type ≠ [] := by
          rintro rfl
          cases h.types.2
        rw [h.parsed] at hlast htyped
        split_ifs at hlast htyped with hdom
        · obtain ⟨hhead,hne⟩ := htyped htype rfl
          exact absurd (h.pre_eq_nil hhead ▸ rfl) hne
        · rw [flatMap_labels hdom] at hlast
          simp at hlast
    · rintro ⟨h,hdot⟩
      rw [dnsParse_untyped h,stringParse_untyped h hdot]

/-- The domain after a type is parsed with a dot at its end, by one of the parsers. -/
theorem typed_not_parses : dnsParse (ServiceRecord.fullString ⟨['a'],['_','t'],['d']⟩) = ⟨['a'],['_','t'],['d','.']⟩ ∧
    stringParseServiceFullName (ServiceRecord.fullString ⟨['a'],['_','t'],['d']⟩) = ⟨['a'],['_','t'],['d']⟩ := by
  decide

end EdgeProxy.Util
