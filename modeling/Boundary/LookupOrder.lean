/-
Which tenant an identifier names: the header resolver and the `_resolve_tenant`
of the commands, each a ladder of lookups that goes on when one raises what its
`except` names.

For a UUID key the refusal of a text that is no UUID is `ValidationError`, and
no `except` names that. For an integer key the resolver also tries the number
`uuid.UUID(value)` stands for.
-/
import Boundary.Provision

namespace Boundary

open Exec

variable {φ ν : Type}

/-! ## Keys, and the tenant an identifier names -/

/-- `get(pk=value)` of an integer key: `ValueError` for what is no integer. -/
structure IntegerKey (conf : ResolverSettings ν) : Prop where
  text : ∀ value e, conf.readKey (.text value) = .error e → e = .valueError
  uuid : ∀ value e, conf.readKey (.uuid value) = .error e → e = .valueError

/-- `get(pk=value)` of a UUID key: `ValidationError` for what is no UUID. -/
structure UuidKey (conf : ResolverSettings ν) : Prop where
  text : ∀ value, conf.readKey (.text value) =
    match conf.uuid value with
    | .some u => .ok (.uuid u)
    | .none => .error .validationError
  uuid : ∀ value, conf.readKey (.uuid value) = .ok (.uuid value)

/-- The tenant whose key the value denotes, or else the one whose slug it is. -/
def Identifies (conf : ResolverSettings ν) (table : TenantTable φ) (value : String) (row : TenantRow φ) : Prop :=
  row ∈ table.rows ∧ (conf.readKey (.text value) = .ok row.pk ∨
    (∀ r ∈ table.rows, conf.readKey (.text value) ≠ .ok r.pk) ∧ row.slug = value)

/-- The header resolver, with an empty cache, and the commands all find the
tenant the value names; with none, the resolver returns `None` and the commands
raise `CommandError`. -/
structure InOrder (conf : ResolverSettings ν) (table : TenantTable φ) (clock : Int × Int) (request : HttpRequest ν)
    (value : String) : Prop where
  header : ∃ found, answer (CachingResolver.header.resolve conf table clock request) {} = .ok found ∧
    ∀ row, found = .some row ↔ Identifies conf table value row
  command : ∀ row, resolveIdentifier conf table value = .ok row ↔ Identifies conf table value row
  notFound : (∀ row, ¬ Identifies conf table value row) →
    resolveIdentifier conf table value = .error (.other ("CommandError: Tenant not found: " ++ value))

/-- What the ladders do not provide for. -/
structure Ordinary (conf : ResolverSettings ν) (table : TenantTable φ) (value : String) : Prop where
  /-- The key field does not refuse the value with `ValidationError`. -/
  admitted : conf.readKey (.text value) ≠ .error .validationError
  /-- An empty header is no header: no tenant has an empty slug. -/
  empty : value = "" → ∀ row, ¬ Identifies conf table value row
  /-- The number of the value, read as a UUID, is the key of no other tenant. -/
  number : value ≠ "" → ∀ u row, conf.uuid value = .some u → row ∈ table.rows → conf.readKey (.uuid u) = .ok row.pk →
    Identifies conf table value row
  /-- The cache has room for one entry. -/
  room : conf.cacheSize = 0 → ∀ row, ¬ Identifies conf table value row

section

variable {conf : ResolverSettings ν} {table : TenantTable φ} {value : String} {row r : TenantRow φ}

theorem Identifies.unique (h : Identifies conf table value row) (h' : Identifies conf table value r) : r = row := by
  obtain ⟨hmem, hkey⟩ := h
  obtain ⟨hmem', hkey'⟩ := h'
  rcases hkey with hkey | ⟨hnone, hslug⟩
  · rcases hkey' with hkey' | ⟨hnone', -⟩
    · rw [hkey, Except.ok.injEq] at hkey'
      exact List.inj_on_of_nodup_map table.pks hmem' hmem hkey'.symm
    · exact absurd hkey (hnone' row hmem)
  · rcases hkey' with hkey' | ⟨-, hslug'⟩
    · exact absurd hkey' (hnone r hmem')
    · exact List.inj_on_of_nodup_map table.slugs hmem' hmem (hslug'.trans hslug.symm)

theorem identifies_of_getPk (h : getPk conf table (.text value) = .ok row) : Identifies conf table value row := by
  obtain ⟨pk, hread, hmem, hpk⟩ := getPk_ok_iff.mp h
  exact ⟨hmem, .inl (hpk ▸ hread)⟩

theorem no_key_of_getPk {e : LookupError} (h : getPk conf table (.text value) = .error e) :
    ∀ r ∈ table.rows, conf.readKey (.text value) ≠ .ok r.pk := by
  intro r hr hread
  have hfound := getPk_ok_iff.mpr ⟨r.pk, hread, hr, rfl⟩
  rw [h] at hfound
  cases hfound

theorem identifies_of_slug {e : LookupError} (hkey : getPk conf table (.text value) = .error e)
    (h : table.getBySlug value = .ok row) : Identifies conf table value row := by
  obtain ⟨hmem, hslug⟩ := TenantTable.getBySlug_eq_ok_iff.mp h
  exact ⟨hmem, .inr ⟨no_key_of_getPk hkey, hslug⟩⟩

theorem not_identifies {e e' : LookupError} (hkey : getPk conf table (.text value) = .error e)
    (hslug : table.getBySlug value = .error e') : ¬ Identifies conf table value row := by
  rintro ⟨hmem, hread | ⟨-, heq⟩⟩
  · exact no_key_of_getPk hkey row hmem hread
  · rw [TenantTable.getBySlug_eq_ok_iff.mpr ⟨hmem, heq⟩] at hslug
    cases hslug

/-! ## The commands -/

/-- What a key lookup raises: the key is not in the table, or is not read. -/
theorem getPk_error {v : PkValue ν} {e : LookupError} (h : getPk conf table v = .error e) :
    e = .doesNotExist ∨ conf.readKey v = .error e := by
  unfold getPk at h
  cases hread : conf.readKey v with
  | error e' =>
    rw [hread] at h
    cases h
    exact .inr rfl
  | ok pk =>
    rw [hread] at h
    exact .inl (TenantTable.getByPk_error h)

/-- By the text as a key, then by the text as a slug. -/
def keyThenSlug (conf : ResolverSettings ν) (table : TenantTable φ) (value : String) : Except LookupError (TenantRow φ) :=
  exceptIn [.doesNotExist, .valueError, .typeError] (getPk conf table (.text value)) (table.getBySlug value)

theorem readKey_text_error (hkeys : IntegerKey conf ∨ UuidKey conf) {e : LookupError}
    (h : conf.readKey (.text value) = .error e) : e = .valueError ∨ e = .validationError := by
  rcases hkeys with hkeys | hkeys
  · exact .inl (hkeys.text value e h)
  · rw [hkeys.text] at h
    split at h
    · cases h
    · cases h
      exact .inr rfl

theorem keyThenSlug_refused (h : conf.readKey (.text value) = .error .validationError) :
    keyThenSlug conf table value = .error .validationError := by
  have hkey : getPk conf table (.text value) = .error .validationError := by rw [getPk, h]; rfl
  rw [keyThenSlug, hkey]
  rfl

/-- Where the key field does not refuse the value, the ladder finds the tenant
the value names, or ends in `DoesNotExist`. -/
theorem keyThenSlug_admitted (table : TenantTable φ) (hkeys : IntegerKey conf ∨ UuidKey conf)
    (h : conf.readKey (.text value) ≠ .error .validationError) :
    (∃ row, keyThenSlug conf table value = .ok row ∧ Identifies conf table value row) ∨
      keyThenSlug conf table value = .error .doesNotExist ∧ ∀ row, ¬ Identifies conf table value row := by
  unfold keyThenSlug
  cases hkey : getPk conf table (.text value) with
  | ok row => exact .inl ⟨row, rfl, identifies_of_getPk hkey⟩
  | error e =>
    have hcaught : e ∈ [LookupError.doesNotExist, .valueError, .typeError] := by
      rcases getPk_error hkey with rfl | hread
      · simp
      · rcases readKey_text_error hkeys hread with rfl | rfl
        · simp
        · exact absurd hread h
    simp only [exceptIn, if_pos hcaught]
    cases hslug : table.getBySlug value with
    | ok row => exact .inl ⟨row, rfl, identifies_of_slug hkey hslug⟩
    | error e' =>
      obtain rfl := TenantTable.getBySlug_error hslug
      exact .inr ⟨rfl, fun row => not_identifies hkey hslug⟩

theorem resolveIdentifier_eq : resolveIdentifier conf table value =
    match keyThenSlug conf table value with
    | .ok row => .ok row
    | .error .doesNotExist => .error (.other ("CommandError: Tenant not found: " ++ value))
    | .error e => .error e.exc := rfl

/-! ## The header resolver -/

/-- `return None` where nothing is found. -/
def orNone : Except LookupError (TenantRow φ) → Except LookupError (Option (TenantRow φ))
  | .ok row => .ok (.some row)
  | .error .doesNotExist => .ok .none
  | .error e => .error e

/-- What the first lookup of the resolver raises, its `except` names. -/
theorem getUuid_error (hkeys : IntegerKey conf ∨ UuidKey conf) {e : LookupError}
    (h : getUuid conf table value = .error e) :
    e ∈ [LookupError.valueError, .doesNotExist] := by
  unfold getUuid at h
  cases hu : conf.uuid value with
  | none =>
    rw [hu] at h
    cases h
    simp
  | some u =>
    rw [hu] at h
    rcases getPk_error h with rfl | hread
    · simp
    · rcases hkeys with hkeys | hkeys
      · simp [hkeys.uuid u e hread]
      · rw [hkeys.uuid] at hread
        cases hread

theorem header_load_uuid (h : getUuid conf table value = .ok row) :
    (Lookup.header value : Lookup ν).load conf table = .ok (.some row) := by
  unfold Lookup.load
  simp only [h]
  rfl

/-- Inside its first `except` the resolver goes on as the commands do. -/
theorem header_load_rest (hkeys : IntegerKey conf ∨ UuidKey conf) (h : ∀ row, getUuid conf table value ≠ .ok row) :
    (Lookup.header value : Lookup ν).load conf table = orNone (keyThenSlug conf table value) := by
  have hrest : exceptIn [.doesNotExist, .valueError, .typeError] (.some <$> getPk conf table (.text value))
      (exceptIn [.doesNotExist] (.some <$> table.getBySlug value) (.ok .none)) =
        orNone (keyThenSlug conf table value) := by
    unfold keyThenSlug
    cases getPk conf table (.text value) with
    | ok row => rfl
    | error e =>
      cases hslug : table.getBySlug value with
      | ok row => cases e <;> rfl
      | error e' =>
        obtain rfl := TenantTable.getBySlug_error hslug
        cases e <;> rfl
  unfold Lookup.load
  simp only [hrest]
  cases huuid : getUuid conf table value with
  | ok row => exact absurd huuid (h row)
  | error e =>
    simp only [Functor.map, Except.map, exceptIn]
    exact if_pos (getUuid_error hkeys huuid)

/-- What a resolve that loaded this answers, with an empty cache: a tenant only
when the cache has room for it. -/
def storedAnswer (conf : ResolverSettings ν) :
    Except LookupError (Option (TenantRow φ)) → Except Exc (Option (TenantRow φ))
  | .ok (.some row) => if conf.cacheSize = 0 then .error (.other "ValueError") else .ok (.some row)
  | .ok .none => .ok .none
  | .error e => .error e.exc

theorem answer_empty (clock : Int × Int) (lookup : Lookup ν) :
    answer (lookup.resolve conf table clock) {} = storedAnswer conf (lookup.load conf table) := by
  by_cases hsize : conf.cacheSize = 0
  · have hrun : answer (lookup.resolve conf table clock) ({} : TenantCache φ) =
        answer (lookup.store conf clock.2 (lookup.load conf table)) {} := rfl
    rw [hrun]
    match lookup.load conf table with
    | .error e => rfl
    | .ok .none => rfl
    | .ok (.some row) =>
      have hset : cacheSet conf clock.2 (lookup.key conf) row ({} : TenantCache φ) = .error (.other "ValueError") {} := by
        unfold cacheSet
        rw [if_pos ⟨by simp [hsize], rfl⟩]
        rfl
      simp only [answer, Lookup.store, bind_run, hset, storedAnswer, if_pos hsize]
  · rw [answer_resolve (Nat.one_le_iff_ne_zero.mpr hsize) (fun tenant ts h => by cases h)]
    match lookup.load conf table with
    | .error e => rfl
    | .ok .none => rfl
    | .ok (.some row) => exact (if_neg hsize).symm

/-- What the header resolver answers to a value of the header. -/
theorem answer_header {clock : Int × Int} {request : HttpRequest ν}
    (hvalue : request.meta_ (HeaderResolver.metaKey conf) = .some value) :
    answer (CachingResolver.header.resolve conf table clock request) {} =
      if value = "" then .ok .none else storedAnswer conf ((Lookup.header value).load conf table) := by
  rw [← answer_empty clock]
  by_cases hempty : value = ""
  · simp only [CachingResolver.resolve, CachingResolver.lookup, HeaderResolver.lookup, hvalue, hempty]
    rfl
  · have hkept : (Option.some value).filter (· ≠ "") = .some value := by simp [hempty]
    simp only [CachingResolver.resolve, CachingResolver.lookup, HeaderResolver.lookup, hvalue, hkept, if_neg hempty]
    rfl

/-! ## Both -/

theorem storedAnswer_ok_iff {loaded : Except LookupError (Option (TenantRow φ))} {found : Option (TenantRow φ)} :
    storedAnswer conf loaded = .ok found ↔ loaded = .ok found ∧ (conf.cacheSize = 0 → found = .none) := by
  match loaded with
  | .error e => simp [storedAnswer]
  | .ok .none =>
    simp only [storedAnswer, Except.ok.injEq]
    exact ⟨fun h => ⟨h, fun _ => h.symm⟩, fun h => h.1⟩
  | .ok (.some row) =>
    by_cases hsize : conf.cacheSize = 0
    · simp only [storedAnswer, if_pos hsize, reduceCtorEq, Except.ok.injEq, false_iff, not_and]
      rintro rfl hnone
      exact absurd (hnone hsize) (by simp)
    · simp [storedAnswer, hsize]

/-- The commands find the tenant the value names, or report that there is
none, exactly when the key field admits the value. -/
theorem commands_iff (table : TenantTable φ) (hkeys : IntegerKey conf ∨ UuidKey conf) :
    ((∀ row, resolveIdentifier conf table value = .ok row ↔ Identifies conf table value row) ∧
      ((∀ row, ¬ Identifies conf table value row) →
        resolveIdentifier conf table value = .error (.other ("CommandError: Tenant not found: " ++ value)))) ↔
      conf.readKey (.text value) ≠ .error .validationError := by
  rw [resolveIdentifier_eq]
  constructor
  · rintro ⟨hfound, hmissing⟩ hrefused
    rw [keyThenSlug_refused hrefused] at hfound hmissing
    have hnone : ∀ row, ¬ Identifies conf table value row := by
      intro row hident
      cases (hfound row).mpr hident
    have hchars := hmissing hnone
    simp only [LookupError.exc, Except.error.injEq, Exc.other.injEq] at hchars
    have hfirst := congrArg (fun text : String => text.toList.head?) hchars
    simp at hfirst
  · intro hadmitted
    rcases keyThenSlug_admitted table hkeys hadmitted with ⟨row, hrun, hident⟩ | ⟨hrun, hnone⟩
    · rw [hrun]
      refine ⟨fun r => ?_, fun hnone => absurd hident (hnone row)⟩
      simp only [Except.ok.injEq]
      exact ⟨fun heq => heq ▸ hident, fun h => (hident.unique h).symm⟩
    · rw [hrun]
      exact ⟨fun r => ⟨fun h => (by cases h), fun h => absurd h (hnone r)⟩, fun _ => rfl⟩

/-- The ladders find the tenant the value names if and only if the value is an
ordinary one. -/
theorem inOrder_iff (conf : ResolverSettings ν) (table : TenantTable φ) (clock : Int × Int) (request : HttpRequest ν)
    (value : String) (hkeys : IntegerKey conf ∨ UuidKey conf)
    (hvalue : request.meta_ (HeaderResolver.metaKey conf) = .some value) :
    InOrder conf table clock request value ↔ Ordinary conf table value := by
  constructor
  · intro h
    have hadmitted := (commands_iff table hkeys).mp ⟨h.command, h.notFound⟩
    obtain ⟨found, hanswer, hfound⟩ := h.header
    rw [answer_header hvalue] at hanswer
    refine ⟨hadmitted, fun hempty row hident => ?_, fun hne u row hu hmem hread => ?_, fun hsize row hident => ?_⟩
    · rw [if_pos hempty, Except.ok.injEq] at hanswer
      rw [← hfound, ← hanswer] at hident
      cases hident
    · have huuid : getUuid conf table value = .ok row := getUuid_ok_iff.mpr ⟨u, hu, getPk_of_mem hmem hread⟩
      rw [if_neg hne, storedAnswer_ok_iff, header_load_uuid huuid, Except.ok.injEq] at hanswer
      exact (hfound row).mp hanswer.1.symm
    · have hsome := (hfound row).mpr hident
      subst hsome
      by_cases hempty : value = ""
      · rw [if_pos hempty] at hanswer
        cases hanswer
      · rw [if_neg hempty, storedAnswer_ok_iff] at hanswer
        cases hanswer.2 hsize
  · intro h
    obtain ⟨hcommand, hmissing⟩ := (commands_iff table hkeys).mpr h.admitted
    refine ⟨?_, hcommand, hmissing⟩
    rw [answer_header hvalue]
    by_cases hempty : value = ""
    · rw [if_pos hempty]
      exact ⟨.none, rfl, fun row => ⟨fun heq => (by cases heq), fun hident => absurd hident (h.empty hempty row)⟩⟩
    rw [if_neg hempty]
    -- A tenant that was found is the one, and there is room for it.
    have hone {row : TenantRow φ} (hident : Identifies conf table value row) :
        ∃ found, storedAnswer conf (.ok (.some row)) = .ok found ∧
          ∀ r, found = .some r ↔ Identifies conf table value r := by
      refine ⟨.some row, storedAnswer_ok_iff.mpr ⟨rfl, fun hsize => absurd hident (h.room hsize row)⟩, fun r => ?_⟩
      rw [Option.some.injEq]
      exact ⟨fun heq => heq ▸ hident, fun h => (hident.unique h).symm⟩
    by_cases huuid : ∃ row, getUuid conf table value = .ok row
    · obtain ⟨row, huuid⟩ := huuid
      obtain ⟨u, hu, hget⟩ := getUuid_ok_iff.mp huuid
      obtain ⟨pk, hread, hmem, rfl⟩ := getPk_ok_iff.mp hget
      rw [header_load_uuid huuid]
      exact hone (h.number hempty u row hu hmem hread)
    · rw [header_load_rest hkeys fun row hrow => huuid ⟨row, hrow⟩]
      rcases keyThenSlug_admitted table hkeys h.admitted with ⟨row, hrun, hident⟩ | ⟨hrun, hnone⟩
      · rw [hrun]
        exact hone hident
      · rw [hrun]
        exact ⟨.none, rfl, fun r => ⟨fun heq => (by cases heq), fun h => absurd h (hnone r)⟩⟩

end

/-! ## One tenant, by its slug -/

namespace Identifiers

/-- Keys of one digit. -/
def integerKeys : ResolverSettings String where
  uuid _ := .none
  readKey
    | .uuid value => .ok (.int value.toNat)
    | .text value => OneDigit.readDigit value
    | .session value => OneDigit.readDigit value
  truthy value := value ≠ ""
  str value := value

/-- No text that is looked up here is a UUID. -/
def uuidKeys : ResolverSettings String where
  uuid _ := .none
  readKey
    | .uuid value => .ok (.uuid value)
    | .text _ => .error .validationError
    | .session _ => .error .validationError
  truthy value := value ≠ ""
  str value := value

theorem integerKeys_integerKey : IntegerKey integerKeys where
  text value e h := by
    simp only [integerKeys, OneDigit.readDigit] at h
    split at h
    · split at h <;> cases h
      rfl
    · cases h
      rfl
  uuid value e h := by cases h

theorem uuidKeys_uuidKey : UuidKey uuidKeys where
  text _ := rfl
  uuid _ := rfl

def club (pk : PrimaryKey) : TenantTable Unit where
  rows := [⟨pk, "club-a", ()⟩]

theorem inOrder_club :
    InOrder integerKeys (club (.int 1)) (0, 0) (OneDigit.withHeader "club-a") "club-a" := by
  refine (inOrder_iff integerKeys (club (.int 1)) (0, 0) (OneDigit.withHeader "club-a") "club-a"
    (.inl integerKeys_integerKey) (by decide)).mpr ⟨by decide, (fun h => absurd h (by decide)), ?_, ?_⟩
  · intro _ u row hu
    cases hu
  · intro h
    cases h

/-- With a UUID key the slug is refused as a key, and never tried as a slug. -/
theorem club_not_inOrder :
    ¬ ∀ (conf : ResolverSettings String) (table : TenantTable Unit) (clock : Int × Int) (request : HttpRequest String)
        (value : String), IntegerKey conf ∨ UuidKey conf →
        request.meta_ (HeaderResolver.metaKey conf) = .some value → InOrder conf table clock request value := by
  intro hclaim
  obtain ⟨found, hanswer, -⟩ := (hclaim uuidKeys (club (.uuid 1)) (0, 0) (OneDigit.withHeader "club-a") "club-a"
    (.inr uuidKeys_uuidKey) (by decide)).header
  have hraised : answer
      (CachingResolver.header.resolve uuidKeys (club (.uuid 1)) (0, 0) (OneDigit.withHeader "club-a")) {} =
      .error (.other "ValidationError") := rfl
  cases hraised.symm.trans hanswer

end Identifiers

end Boundary
