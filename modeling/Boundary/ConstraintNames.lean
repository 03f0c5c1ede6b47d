/-
The names `tenant_unique` derives, as the database keeps them: interpolated
with the app label and the model's name when the model is prepared, and clipped
by PostgreSQL to 63 bytes.

`names_digest` hashes its arguments one after the other, with nothing between
them. `md5` is any function with as many hexadecimal digits; the app label and
the model's name stand as Django interpolates them, in lower case.
-/
import Boundary.TenantUnique

namespace Boundary

/-- The digits of `hashlib.md5(text).hexdigest()`. -/
abbrev Md5 := String → Fin 32 → Fin 16

def hexChar (d : Fin 16) : Char := Nat.digitChar d

/-- `names_digest(*args, length=length)`. -/
def namesDigest (md5 : Md5) (args : List String) (length : Nat) : String :=
  String.ofList (((List.ofFn (md5 (String.join args))).map hexChar).take length)

/-! ## Interpolation -/

/-- Where in a template `%` is. -/
inductive FormatState where
  | text
  | percent
  | key (read : List Char)

/-- `template % names`, of the placeholders `%(key)s` and `%%`; `none` is an
error. -/
def formatNames (names : String → Option String) : FormatState → List Char → Option (List Char)
  | .text, [] => .some []
  | .text, '%' :: cs => formatNames names .percent cs
  | .text, c :: cs => (formatNames names .text cs).map (c :: ·)
  | .percent, '(' :: cs => formatNames names (.key []) cs
  | .percent, '%' :: cs => (formatNames names .text cs).map ('%' :: ·)
  | .percent, _ => .none
  | .key read, ')' :: 's' :: cs =>
    match names (String.ofList read.reverse) with
    | .some value => (formatNames names .text cs).map (value.toList ++ ·)
    | .none => .none
  | .key _, ')' :: _ => .none
  | .key read, c :: cs => formatNames names (.key (c :: read)) cs
  | .key _, [] => .none

/-- `Options._format_names`. -/
def modelNames (appLabel modelName : String) (key : String) : Option String :=
  if key = "app_label" then .some appLabel
  else if key = "class" then .some modelName
  else .none

/-- The name of the constraint of a prepared model. -/
def derivedName (md5 : Md5) (appLabel modelName : String) (fields : List String) : Option (List Char) :=
  formatNames (modelNames appLabel modelName) .text (deriveConstraintName (namesDigest md5) fields).toList

/-! ## Identifiers -/

/-- An identifier is clipped before the character that would go past the
limit. -/
def clip : Nat → List Char → List Char
  | _, [] => []
  | limit, c :: cs => if c.utf8Size ≤ limit then c :: clip (limit - c.utf8Size) cs else []

def bytes : List Char → Nat
  | [] => 0
  | c :: cs => c.utf8Size + bytes cs

/-- What comes before the digest. -/
def stem (appLabel modelName : String) : List Char :=
  appLabel.toList ++ '_' :: (modelName.toList ++ "_tenant_uniq_".toList)

/-- Both names exist, and differ before and after they are clipped. -/
def NamesDiffer (md5 : Md5) (appLabel modelName : String) (fields fields' : List String) : Prop :=
  ∃ name name', derivedName md5 appLabel modelName fields = .some name ∧
    derivedName md5 appLabel modelName fields' = .some name' ∧ name ≠ name' ∧ clip 63 name ≠ clip 63 name'

/-! ## Names -/

section

variable {md5 : Md5} {names : String → Option String} {fields fields' : List String} {cs ds : List Char} {limit : Nat}

theorem mem_namesDigest {args : List String} {length : Nat} {c : Char} (h : c ∈ (namesDigest md5 args length).toList) :
    ∃ d, c = hexChar d := by
  rw [namesDigest, String.toList_ofList] at h
  obtain ⟨d, -, rfl⟩ := List.mem_map.mp (List.mem_of_mem_take h)
  exact ⟨d, rfl⟩

theorem length_namesDigest {args : List String} {length : Nat} (h : length ≤ 32) :
    (namesDigest md5 args length).toList.length = length := by
  simp [namesDigest, h]

theorem namesDigest_congr {args args' : List String} (h : String.join args = String.join args') (length : Nat) :
    namesDigest md5 args length = namesDigest md5 args' length := by
  rw [namesDigest, namesDigest, h]

/-- A text with no placeholder is left as it is. -/
theorem formatNames_text (h : '%' ∉ cs) : formatNames names .text cs = .some cs := by
  induction cs with
  | nil => rfl
  | cons c cs ih =>
    rw [List.mem_cons, not_or] at h
    rw [formatNames, ih h.2]
    · rfl
    · exact fun hc => h.1 hc.symm

theorem formatNames_key {read key : List Char} {value : String} (hkey : ')' ∉ key)
    (hvalue : names (String.ofList (read.reverse ++ key)) = .some value) :
    formatNames names (.key read) (key ++ ')' :: 's' :: cs) = (formatNames names .text cs).map (value.toList ++ ·) := by
  induction key generalizing read with
  | nil =>
    rw [List.append_nil] at hvalue
    rw [List.nil_append, formatNames, hvalue]
  | cons c key ih =>
    rw [List.mem_cons, not_or] at hkey
    rw [List.cons_append, formatNames]
    · exact ih hkey.2 (by simpa using hvalue)
    · rintro cs rfl
      exact absurd rfl hkey.1
    · rintro rfl
      exact absurd rfl hkey.1

/-- A placeholder is replaced by what it names. -/
theorem formatNames_placeholder {key value : String} (hkey : ')' ∉ key.toList) (hvalue : names key = .some value) :
    formatNames names .text ('%' :: '(' :: (key.toList ++ ')' :: 's' :: cs)) =
      (formatNames names .text cs).map (value.toList ++ ·) :=
  formatNames_key hkey (by simpa using hvalue)

theorem formatNames_char {c : Char} (h : c ≠ '%') :
    formatNames names .text (c :: cs) = (formatNames names .text cs).map (c :: ·) := by
  rw [formatNames]
  exact h

theorem derivedName_eq (md5 : Md5) (appLabel modelName : String) (fields : List String) :
    derivedName md5 appLabel modelName fields =
      .some (stem appLabel modelName ++ (namesDigest md5 fields 8).toList) := by
  have htemplate : "%(app_label)s_%(class)s_tenant_uniq_".toList =
      '%' :: '(' :: ("app_label".toList ++ ')' :: 's' :: '_' :: '%' :: '(' ::
        ("class".toList ++ ')' :: 's' :: "_tenant_uniq_".toList)) := by decide +kernel
  have htext : '%' ∉ "_tenant_uniq_".toList ++ (namesDigest md5 fields 8).toList := by
    rw [List.mem_append, not_or]
    refine ⟨by decide, fun hmem => ?_⟩
    obtain ⟨d, hd⟩ := mem_namesDigest hmem
    revert hd
    revert d
    decide
  have happ : modelNames appLabel modelName "app_label" = .some appLabel := if_pos rfl
  have hclass : modelNames appLabel modelName "class" = .some modelName := rfl
  unfold derivedName deriveConstraintName stem
  simp only [String.toList_append, htemplate, List.cons_append, List.append_assoc]
  rw [formatNames_placeholder (by decide) happ, formatNames_char (by decide), formatNames_placeholder (by decide) hclass,
    formatNames_text htext]
  rfl

/-! ## Clipped names -/

theorem clip_of_ascii (h : ∀ c ∈ ds, c.utf8Size = 1) : clip limit ds = ds.take limit := by
  induction ds generalizing limit with
  | nil => simp [clip]
  | cons c ds ih =>
    rw [List.forall_mem_cons] at h
    cases limit with
    | zero => simp [clip, h.1]
    | succ limit => simp [clip, h.1, ih h.2]

/-- Of a name that fits up to its last part, some of that part is kept. -/
theorem clip_append (hascii : ∀ c ∈ ds, c.utf8Size = 1) (hfits : bytes cs ≤ limit) :
    clip limit (cs ++ ds) = cs ++ ds.take (limit - bytes cs) := by
  induction cs generalizing limit with
  | nil => exact clip_of_ascii hascii
  | cons c cs ih =>
    rw [bytes] at hfits ⊢
    have hc : c.utf8Size ≤ limit := by omega
    rw [List.cons_append, clip, if_pos hc, ih (by omega), List.cons_append]
    congr 3
    omega

/-- Of a name that does not, nothing is. -/
theorem clip_append_long (hlong : limit < bytes cs) : clip limit (cs ++ ds) = clip limit cs := by
  induction cs generalizing limit with
  | nil => simp [bytes] at hlong
  | cons c cs ih =>
    rw [bytes] at hlong
    rw [List.cons_append, clip, clip]
    by_cases hc : c.utf8Size ≤ limit
    · rw [if_pos hc, if_pos hc, ih (by omega)]
    · rw [if_neg hc, if_neg hc]

theorem utf8Size_digest {args : List String} {length : Nat} :
    ∀ c ∈ (namesDigest md5 args length).toList, c.utf8Size = 1 := by
  intro c hmem
  obtain ⟨d, rfl⟩ := mem_namesDigest hmem
  clear hmem
  revert d
  decide

/-- Two derived names differ as far as the digits that are kept do. -/
theorem clip_derived_eq_iff {prior : List Char} : clip limit (prior ++ (namesDigest md5 fields 8).toList) =
      clip limit (prior ++ (namesDigest md5 fields' 8).toList) ↔
    (namesDigest md5 fields 8).toList.take (limit - bytes prior) =
      (namesDigest md5 fields' 8).toList.take (limit - bytes prior) := by
  by_cases hfits : bytes prior ≤ limit
  · rw [clip_append utf8Size_digest hfits, clip_append utf8Size_digest hfits, List.append_cancel_left_eq]
  · have hnone : limit - bytes prior = 0 := by omega
    rw [clip_append_long (by omega), clip_append_long (by omega), hnone]
    simp

end

/-- The two derived names differ, as they are and clipped, if and only if the
joined field names do, and either the whole digest is kept or what is kept of
it differs. -/
theorem namesDiffer_iff (md5 : Md5) (appLabel modelName : String) (fields fields' : List String)
    (hmd5 : String.join fields ≠ String.join fields' → namesDigest md5 fields 8 ≠ namesDigest md5 fields' 8) :
    NamesDiffer md5 appLabel modelName fields fields' ↔
      String.join fields ≠ String.join fields' ∧ (bytes (stem appLabel modelName) + 8 ≤ 63 ∨
        (namesDigest md5 fields 8).toList.take (63 - bytes (stem appLabel modelName)) ≠
          (namesDigest md5 fields' 8).toList.take (63 - bytes (stem appLabel modelName))) := by
  have hnames : NamesDiffer md5 appLabel modelName fields fields' ↔
      (namesDigest md5 fields 8).toList ≠ (namesDigest md5 fields' 8).toList ∧
        (namesDigest md5 fields 8).toList.take (63 - bytes (stem appLabel modelName)) ≠
          (namesDigest md5 fields' 8).toList.take (63 - bytes (stem appLabel modelName)) := by
    unfold NamesDiffer
    rw [derivedName_eq, derivedName_eq]
    constructor
    · rintro ⟨name, name', hname, hname', hne, hclip⟩
      cases hname
      cases hname'
      rw [Ne, clip_derived_eq_iff] at hclip
      exact ⟨fun heq => hne (by rw [heq]), hclip⟩
    · rintro ⟨hne, hkept⟩
      exact ⟨_, _, rfl, rfl, fun heq => hne (List.append_cancel_left heq), fun heq => hkept (clip_derived_eq_iff.mp heq)⟩
  have hjoin : (namesDigest md5 fields 8).toList ≠ (namesDigest md5 fields' 8).toList ↔
      String.join fields ≠ String.join fields' := by
    constructor
    · exact fun hne heq => hne (by rw [namesDigest_congr heq])
    · exact fun hne heq => hmd5 hne (String.toList_inj.mp heq)
  rw [hnames, ← hjoin]
  refine and_congr_right fun hne => ⟨.inr, ?_⟩
  rintro (hroom | hkept)
  · have hwhole {args : List String} :
        (namesDigest md5 args 8).toList.take (63 - bytes (stem appLabel modelName)) = (namesDigest md5 args 8).toList := by
      rw [List.take_of_length_le]
      rw [length_namesDigest (by decide)]
      omega
    rwa [hwhole, hwhole]
  · exact hkept

/-! ## Two lists that are hashed alike -/

namespace DerivedNames

/-- A hash that tells two texts apart in its first digit. -/
def oneDigit : Md5 := fun text _ => if text = "slug" then 1 else 0

theorem namesDiffer_slug :
    (String.join ["slug"] ≠ String.join ["slug", "year"] →
      namesDigest oneDigit ["slug"] 8 ≠ namesDigest oneDigit ["slug", "year"] 8) ∧
      NamesDiffer oneDigit "shop" "doc" ["slug"] ["slug", "year"] := by
  have hmd5 : String.join ["slug"] ≠ String.join ["slug", "year"] →
      namesDigest oneDigit ["slug"] 8 ≠ namesDigest oneDigit ["slug", "year"] 8 := fun _ => by decide +kernel
  exact ⟨hmd5, (namesDiffer_iff oneDigit "shop" "doc" ["slug"] ["slug", "year"] hmd5).mpr
    ⟨by decide +kernel, .inl (by decide +kernel)⟩⟩

/-- `tenant_unique("a", "b")` and `tenant_unique("ab")` of one model. -/
theorem joined_alike :
    ¬ ∀ (md5 : Md5) (appLabel modelName : String) (fields fields' : List String), fields ≠ [] → fields' ≠ [] →
        fields ≠ fields' →
        (String.join fields ≠ String.join fields' → namesDigest md5 fields 8 ≠ namesDigest md5 fields' 8) →
        NamesDiffer md5 appLabel modelName fields fields' := by
  intro hclaim
  have hjoin : String.join ["a", "b"] = String.join ["ab"] := by decide +kernel
  obtain ⟨name, name', hname, hname', hne, -⟩ := hclaim oneDigit "shop" "doc" ["a", "b"] ["ab"] (by simp) (by simp)
    (by simp) (fun h => absurd hjoin h)
  rw [derivedName_eq, namesDigest_congr hjoin, ← derivedName_eq, hname'] at hname
  exact hne (Option.some.inj hname).symm

end DerivedNames

end Boundary
