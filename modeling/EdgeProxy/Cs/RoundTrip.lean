import EdgeProxy.Cs.ConnectionString

/-! # Connection strings as text

A connection string is written as its entries with a semicolon between them. It is read back unchanged exactly when no
entry has a semicolon in it.
-/
namespace EdgeProxy.Cs
open List IoCs Option

variable {sasTokenValidate : Bytes → Bool} {cs : IoCs}

lemma ioCsParserCallback_ok {ctx ctx' key val} (h : ioCsParserCallback ctx key val = .ok ctx') :
    ctx' = ctx ∨ ∃ entry, entry ≠ .hubName ∧ ctx entry = none ∧ ctx' = ctx.set entry (some val) := by
  have hkeys : ∀ k ∈ keys, k.2 ≠ some .hubName := by decide
  unfold ioCsParserCallback at h
  split at h
  · rename_i entry hfind
    split_ifs at h with hset
    cases h
    refine .inr ⟨entry,fun hhub => ?_,by simpa using hset,rfl⟩
    exact hkeys _ (mem_of_find?_eq_some hfind) (congrArg some hhub)
  · cases h
    exact .inl rfl
  · cases h

/-- The entries that a text gives have no semicolon, and the name of the hub is none of them. -/
structure IoCs.Plain (cs : IoCs) : Prop where
  hubName : cs .hubName = none
  plain : ∀ entry value, cs entry = some value → 0x3b ∉ value

lemma IoCs.Plain.set (h : cs.Plain) {entry} (hentry : entry ≠ .hubName) {value}
    (hvalue : 0x3b ∉ value) : (cs.set entry (some value)).Plain := by
  constructor
  · rw [set_of_ne cs hentry.symm]
    exact h.hubName
  · intro other value' hother
    by_cases heq : other = entry
    · rw [heq,set_same] at hother
      cases hother
      exact hvalue
    · rw [set_of_ne cs heq] at hother
      exact h.plain other value' hother
lemma plain_parsed {text cs}
    (h : stringKeyValueParser ioCsParserCallback 0x3b text (.inKey []) .zero = .ok cs) : cs.Plain := by
  refine parser_invariant ?_ text (.inKey []) (fun _ _ hscan => by cases hscan)
    ⟨rfl,fun _ _ hnone => by cases hnone⟩ h
  intro ctx ctx' key value hvalue hctx hvisit
  obtain rfl | ⟨entry,hentry,-,rfl⟩ := ioCsParserCallback_ok hvisit
  · exact hctx
  · exact hctx.set hentry hvalue
lemma plain_getHostName (h : cs.Plain) : (ioCsGetHostName cs).1.Plain := by
  unfold ioCsGetHostName
  split
  · exact h
  · exact h
  · rename_i endpoint _ hendpoint
    have hplain := h.plain .endpoint endpoint hendpoint
    dsimp only
    split_ifs
    · refine h.set (by decide) fun hmem => hplain ?_
      exact mem_of_mem_stringTrimScheme (( takeWhile_prefix _).subset hmem)
    · exact h
lemma getHostName_hubName : (ioCsGetHostName cs).1 .hubName = cs .hubName := by
  unfold ioCsGetHostName
  split
  · rfl
  · rfl
  · dsimp only
    split_ifs
    · dsimp only
      rw [set_of_ne cs (show .hubName ≠ .hostName by decide)]
    · rfl
lemma Built.valid (h : Built sasTokenValidate cs) : cs.Valid sasTokenValidate ∧ cs .hubName = none := by
  cases h with
  | text hcreate =>
    obtain ⟨parsed,hparsed,hvalidate⟩ := bind_eq_ok_iff.1 hcreate
    obtain ⟨rfl,hvalid⟩ := ioCsValidate_eq_ok_iff.1 hvalidate
    exact ⟨hvalid,getHostName_hubName.trans (plain_parsed hparsed).hubName⟩
  | parts hcreate =>
    obtain ⟨rfl,hvalid⟩ := ioCsValidate_eq_ok_iff.1 hcreate
    exact ⟨hvalid,getHostName_hubName.trans rfl⟩
def pairs (cs : IoCs) (entries : List (Entry × Bytes)) : List (Bytes × Bytes) :=
  entries.filterMap fun e => (cs e.1).map fun value => (e.2.dropLast,value)

variable {e : Entry × Bytes}

lemma pairs_cons (cs : IoCs) (e : Entry × Bytes) (entries : List (Entry × Bytes)) :
    pairs cs (e :: entries) = ((cs e.1).map fun value => (e.2.dropLast,value)).toList ++ pairs cs entries := by
  cases h : cs e.1 <;> simp [pairs,h]
lemma names_eq (h : e ∈ names) : e.2 = e.2.dropLast ++ [0x3d] := by
  revert e
  decide

lemma foldl_entries (cs : IoCs) (entries : List (Entry × Bytes)) (h : ∀ e ∈ entries, e.2 = e.2.dropLast ++ [0x3d])
    (string : Bytes) : entries.foldl (fun string e => ioCsAppendEntryToString cs e.1 e.2 string) string =
      if string = [] then joinKeyValues 0x3b (pairs cs entries)
      else if pairs cs entries = [] then string
      else string ++ 0x3b :: joinKeyValues 0x3b (pairs cs entries) := by
  induction entries generalizing string with
  | nil =>
    by_cases hstring : string = []
    · rw [hstring]
      rfl
    · rw [if_neg hstring]
      rfl
  | cons e entries ih =>
    have ih := ih fun e' he' => h e' (mem_cons_of_mem e he')
    rw [foldl_cons,ih]
    cases hentry : cs e.1 with
    | none =>
      have happend : ioCsAppendEntryToString cs e.1 e.2 string = string := by
        rw [ioCsAppendEntryToString,hentry]
      rw [happend,pairs_cons,hentry]
      rfl
    | some value =>
      have hname : e.2 ++ value = e.2.dropLast ++ 0x3d :: value := by
        rw [h e mem_cons_self]
        simp
      have happend : ioCsAppendEntryToString cs e.1 e.2 string =
          (if string = [] then [] else string ++ [0x3b]) ++ (e.2.dropLast ++ 0x3d :: value) := by
        rw [ioCsAppendEntryToString,hentry,← hname]
        cases string <;> simp [ascii]
      rw [happend,pairs_cons,hentry]
      by_cases hstring : string = [] <;> by_cases hrest : pairs cs entries = [] <;>
        simp [hstring,hrest,joinKeyValues_cons]

lemma ioCsToString_eq (cs : IoCs) : ioCsToString cs = joinKeyValues 0x3b (pairs cs names) :=
  foldl_entries cs names (fun _ => names_eq) []
lemma find_key (h : e ∈ names) :
    (keys.find? fun k => stringIsEqualNocase e.2.dropLast k.1).map Prod.snd = some (some e.1) := by
  revert e
  decide
lemma ioCsParserCallback_name (h : e ∈ names) {ctx} (hctx : ctx e.1 = none)
    (value : Bytes) : ioCsParserCallback ctx e.2.dropLast value = .ok (ctx.set e.1 (some value)) := by
  obtain ⟨⟨key,entry⟩,hfind,rfl⟩ := map_eq_some_iff.1 (find_key h)
  rw [ioCsParserCallback,hfind]
  dsimp only
  rw [hctx]
  rfl
def merge (cs ctx : IoCs) (entries : List Entry) : IoCs :=
  fun entry => if entry ∈ entries then cs entry else ctx entry
lemma merge_cons (cs ctx : IoCs) (entry : Entry) (entries : List Entry) :
    merge cs ctx (entry :: entries) = merge cs (ctx.set entry (cs entry)) entries := by
  funext other
  unfold merge
  by_cases hother : other = entry
  · subst hother
    rw [if_pos mem_cons_self,set_same,ite_self]
  · rw [set_of_ne ctx hother]
    by_cases hmem : other ∈ entries
    · rw [if_pos hmem,if_pos (mem_cons_of_mem entry hmem)]
    · rw [if_neg hmem,if_neg fun h => (mem_cons.1 h).elim hother hmem]

/-- Visiting the keys and values of entries that are not set sets them. -/
theorem foldlM_pairs (cs : IoCs) (entries : List (Entry × Bytes)) (hnames : ∀ e ∈ entries, e ∈ names)
    (hnodup : (entries.map Prod.fst).Nodup) (ctx : IoCs) (hctx : ∀ e ∈ entries, ctx e.1 = none) :
    (pairs cs entries).foldlM (fun ctx q => ioCsParserCallback ctx q.1 q.2) ctx =
      .ok (merge cs ctx (entries.map Prod.fst)) := by
  induction entries generalizing ctx with
  | nil => rfl
  | cons e entries ih =>
    rw [map_cons,nodup_cons] at hnodup
    have he := hctx e mem_cons_self
    have ih := fun ctx => ih (fun e' he' => hnames e' (mem_cons_of_mem e he')) hnodup.2 ctx
    have hset : ∀ e' ∈ entries, (ctx.set e.1 (cs e.1)) e'.1 = none := by
      intro e' he'
      have hne : e'.1 ≠ e.1 := fun heq => hnodup.1 (heq ▸ mem_map_of_mem he')
      rw [set_of_ne ctx hne]
      exact hctx e' (mem_cons_of_mem e he')
    rw [map_cons,merge_cons,← ih _ hset]
    cases hentry : cs e.1 with
    | none =>
      have hsame : ctx.set e.1 none = ctx := he ▸ Function.update_eq_self e.1 ctx
      rw [pairs_cons,hentry,hsame]
      rfl
    | some value =>
      rw [pairs_cons,hentry,map_some,toList_some,cons_append,nil_append,foldlM_cons,
        ioCsParserCallback_name (hnames e mem_cons_self) he]
      rfl

lemma names_entry {entry} (h : entry ≠ .hubName) : entry ∈ names.map Prod.fst := by
  revert h
  cases entry <;> decide

lemma parser_ioCsToString (h : cs.Plain) {hostName} (hhost : cs .hostName = some hostName) :
    stringKeyValueParser ioCsParserCallback 0x3b (ioCsToString cs) (.inKey []) .zero = .ok cs := by
  have hpairs : pairs cs names = (ascii "HostName",hostName) :: pairs cs names.tail :=
    filterMap_cons_some (congrArg (Option.map _) hhost)
  have hnames : ∀ e ∈ names, 0x3d ∉ e.2.dropLast := by decide
  have hkey : ∀ q ∈ pairs cs names, 0x3d ∉ q.1 := by
    intro q hq
    obtain ⟨e,he,hq⟩ := mem_filterMap.1 hq
    obtain ⟨value,-,rfl⟩ := map_eq_some_iff.1 hq
    exact hnames e he
  have hvalue : ∀ q ∈ pairs cs names, 0x3b ∉ q.2 := by
    intro q hq
    obtain ⟨e,-,hq⟩ := mem_filterMap.1 hq
    obtain ⟨value,hvalue,rfl⟩ := map_eq_some_iff.1 hq
    exact h.plain e.1 value hvalue
  rw [ioCsToString_eq,hpairs,← append_nil (joinKeyValues _ _),
    parser_joinKeyValues _ _ (hpairs ▸ hkey) (hpairs ▸ hvalue) (.inl rfl),← hpairs,
    foldlM_pairs cs names (fun _ => id) (by decide) .zero fun _ _ => rfl]
  congr 1
  funext entry
  by_cases hhub : entry = .hubName
  · rw [hhub,h.hubName]
    exact if_neg (by decide)
  · exact if_pos (names_entry hhub)

/-- A connection string is read back from its text exactly when none of its values contains a semicolon. -/
theorem ioCs_roundTrips_iff (hbuilt : Built sasTokenValidate cs) :
    ioCsCreateFromString sasTokenValidate (ioCsToString cs) = .ok cs ↔
      ∀ entry value, cs entry = some value → 0x3b ∉ value := by
  obtain ⟨hvalid,hhub⟩ := hbuilt.valid
  obtain ⟨hostName,hhost,-⟩ := hvalid.host
  constructor
  · intro h
    obtain ⟨parsed,hparsed,hvalidate⟩ := bind_eq_ok_iff.1 h
    obtain ⟨rfl,-⟩ := ioCsValidate_eq_ok_iff.1 hvalidate
    exact (plain_getHostName (plain_parsed hparsed)).plain
  · intro h
    refine bind_eq_ok_iff.2 ⟨cs,parser_ioCsToString ⟨hhub,h⟩ hhost,ioCsValidate_eq_ok_iff.2 ⟨?_,hvalid⟩⟩
    rw [ioCsGetHostName_of_host hhost]

/-- The connection string of a device. -/
theorem device_roundTrips : ∃ cs, Built (fun _ => true) cs ∧
    ioCsCreateFromString (fun _ => true) (ioCsToString cs) = .ok cs := by
  have hcreate : ioCsCreate (fun _ => true) (ascii "hub.net") (some (ascii "gw")) none none = .ok _ := rfl
  refine ⟨_,.parts hcreate,(ioCs_roundTrips_iff (.parts hcreate)).2 fun entry value hvalue => ?_⟩
  cases entry with
  | hostName | deviceId =>
    cases hvalue
    decide
  | _ => cases hvalue

/-- A device may have a semicolon in its name, and its connection string cannot be read back. -/
theorem device_not_roundTrips : ∃ cs, Built (fun _ => true) cs ∧
    ioCsCreateFromString (fun _ => true) (ioCsToString cs) = .error .invalidFormat := by
  have hcreate : ioCsCreate (fun _ => true) (ascii "hub.net") (some (ascii "a;b")) none none = .ok _ := rfl
  exact ⟨_,.parts hcreate,rfl⟩

/-- What was read from a text, in whatever order, is what the text that it is written as is read as. -/
theorem parsed_roundTrips {text} (h : ioCsCreateFromString sasTokenValidate text = .ok cs) :
    ioCsCreateFromString sasTokenValidate (ioCsToString cs) = .ok cs := by
  obtain ⟨parsed,hparsed,hvalidate⟩ := bind_eq_ok_iff.1 h
  obtain ⟨rfl,hvalid⟩ := ioCsValidate_eq_ok_iff.1 hvalidate
  obtain ⟨hostName,hhost,-⟩ := hvalid.host
  have hplain := plain_getHostName (plain_parsed hparsed)
  refine bind_eq_ok_iff.2 ⟨_,parser_ioCsToString hplain hhost,ioCsValidate_eq_ok_iff.2 ⟨?_,hvalid⟩⟩
  rw [ioCsGetHostName_of_host hhost]
theorem parsedDevice_roundTrips : ∃ cs, ioCsCreateFromString (fun _ => true) (ascii "DeviceId=gw;HostName=hub.net") =
    .ok cs ∧ ioCsCreateFromString (fun _ => true) (ioCsToString cs) = .ok cs := by
  have h : ioCsCreateFromString (fun _ => true) (ascii "DeviceId=gw;HostName=hub.net") = .ok _ := rfl
  exact ⟨_,h,parsed_roundTrips h⟩

end EdgeProxy.Cs
