/-
The hosts that `SubdomainResolver` takes a slug from, as a grammar: labels that
are not empty, the first of them the slug, and under configured parents the
rest one of the parents.

The resolver strips every dot at the end of a host, where the grammar, like the
comments of the code, strips the one of a fully-qualified name; a host that
ends in several is what the two disagree on.
-/
import Boundary.CachedResolution

namespace Boundary

open Exec

/-! ## Splitting -/

section

variable {α : Type} [DecidableEq α] {c : α} {xs ys rest : List α}

/-- No part of a list that was split holds what it was split on. -/
theorem not_mem_of_splitOn (c : α) (xs : List α) : ∀ part ∈ xs.splitOn c, c ∉ part := by
  induction xs with
  | nil => simp
  | cons x xs ih =>
    rw [List.splitOn_cons_eq_if_modifyHead]
    split
    · simpa using ih
    · next hx =>
      obtain ⟨part, parts, hparts⟩ := List.exists_cons_of_ne_nil (List.splitOn_ne_nil c xs)
      rw [hparts] at ih ⊢
      have hne : c ≠ x := fun h => hx (by simp [h])
      rw [List.modifyHead_cons, List.forall_mem_cons, List.mem_cons, not_or]
      rw [List.forall_mem_cons] at ih
      exact ⟨⟨hne, ih.1⟩, ih.2⟩

/-- A list splits into a part and the parts of the rest, when it is the part,
the separator and the rest. -/
theorem splitOn_eq_cons_iff : xs.splitOn c = ys :: rest.splitOn c ↔ c ∉ ys ∧ xs = ys ++ c :: rest := by
  constructor
  · intro h
    refine ⟨not_mem_of_splitOn c xs ys (by simp [h]), ?_⟩
    have hjoin := congrArg ([c].intercalate ·) h
    obtain ⟨part, parts, hparts⟩ := List.exists_cons_of_ne_nil (List.splitOn_ne_nil c rest)
    have hrest : [c].intercalate (rest.splitOn c) = rest := List.intercalate_splitOn c
    simp only [List.intercalate_splitOn, hparts, List.intercalate_cons_cons] at hjoin hrest
    rw [hjoin, hrest]
    simp
  · rintro ⟨hmem, rfl⟩
    exact List.splitOn_append_cons_self_of_not_mem hmem rest

theorem nil_mem_splitOn_concat (c : α) (xs : List α) : [] ∈ (xs ++ [c]).splitOn c := by
  rw [List.splitOn_append_cons_self]
  simp

end

/-! ## The grammar -/

/-- What is left of a host without its port. -/
def withoutPort (host : String) : List Char := host.toList.takeWhile (· ≠ ':')

/-- Without the dot of a fully-qualified name. -/
def withoutDot (host : List Char) : List Char := if host.getLast? = .some '.' then host.dropLast else host

def lowered (host : List Char) : List Char := host.map Char.toLower

/-- The host names the slug: its labels are not empty, and it is the slug, a
dot and one of the parents, or, with no parents configured, three labels or
more. -/
def HostNames (parents : Option (List String)) (host : List Char) (slug : String) : Prop :=
  [] ∉ host.splitOn '.' ∧
    match parents with
    | .some parents => '.' ∉ slug.toList ∧ ∃ parent ∈ parents, host = slug.toList ++ '.' :: lowered parent.toList
    | .none => 3 ≤ (host.splitOn '.').length ∧ (host.splitOn '.').head? = .some slug.toList

variable {φ ν : Type}

/-- The resolver looks up the slugs the host names, in whatever order the
parents stand, and for any other host reads neither the cache nor the table. -/
structure FollowsGrammar (conf : ResolverSettings ν) (request : HttpRequest ν) : Prop where
  looksUp : ∀ slug, CachingResolver.subdomain.lookup conf request = .some (.subdomain slug) ↔
    HostNames conf.subdomainParentDomain (lowered (withoutDot (withoutPort request.host))) slug
  order : ∀ parents parents', conf.subdomainParentDomain = .some parents → parents'.Perm parents →
    CachingResolver.subdomain.lookup { conf with subdomainParentDomain := .some parents' } request =
      CachingResolver.subdomain.lookup conf request
  silent : (∀ slug, ¬ HostNames conf.subdomainParentDomain (lowered (withoutDot (withoutPort request.host))) slug) →
    ∀ (φ : Type) (table : TenantTable φ) (clock : Int × Int) (cache : TenantCache φ),
      CachingResolver.subdomain.resolve conf table clock request cache = .ok .none cache

/-! ## What the code looks up -/

section

variable {conf : ResolverSettings ν} {request : HttpRequest ν} {slug : String}

theorem ofList_inj {xs ys : List Char} : String.ofList xs = String.ofList ys ↔ xs = ys := by
  constructor
  · intro h
    simpa using congrArg String.toList h
  · rintro rfl
    rfl

theorem map_ofList_inj {xs ys : List (List Char)} : xs.map String.ofList = ys.map String.ofList ↔ xs = ys := by
  constructor
  · intro h
    exact List.map_injective_iff.mpr (fun _ _ h => ofList_inj.mp h) h
  · rintro rfl
    rfl

/-- Of the configured parents, one is found that is the rest of the host. -/
theorem slugForConfiguredParent_eq_some_iff {host : List Char} {parents : List String} :
    slugForConfiguredParent (String.ofList host) parents = .some slug ↔
      '.' ∉ slug.toList ∧ ∃ parent ∈ parents, host = slug.toList ++ '.' :: lowered parent.toList := by
  have hone : ∀ parent : String,
      (splitOnChar '.' (String.ofList host)).length =
            (splitOnChar '.' (String.ofList (parent.toList.map Char.toLower))).length + 1 ∧
          (splitOnChar '.' (String.ofList host)).tail = splitOnChar '.' (String.ofList (parent.toList.map Char.toLower)) ∧
          (splitOnChar '.' (String.ofList host)).head? = .some slug ↔
        '.' ∉ slug.toList ∧ host = slug.toList ++ '.' :: lowered parent.toList := by
    intro parent
    rw [← splitOn_eq_cons_iff]
    simp only [splitOnChar, String.toList_ofList]
    obtain ⟨label, labels, hlabels⟩ := List.exists_cons_of_ne_nil (List.splitOn_ne_nil '.' host)
    have hslug : String.ofList label = slug ↔ label = slug.toList := by
      rw [← ofList_inj, String.ofList_toList]
    simp only [hlabels, List.map_cons, List.tail_cons, List.head?_cons, map_ofList_inj, Option.some.injEq, hslug,
      List.cons.injEq, List.length_cons, List.length_map, lowered]
    constructor
    · rintro ⟨-, hrest, hfirst⟩
      exact ⟨hfirst, hrest⟩
    · rintro ⟨hfirst, hrest⟩
      exact ⟨by rw [hrest], hrest, hfirst⟩
  induction parents with
  | nil => simp [slugForConfiguredParent]
  | cons parent parents ih =>
    simp only [slugForConfiguredParent, List.mem_cons, exists_eq_or_imp, and_or_left]
    split
    next hmatch =>
      constructor
      · exact fun hfirst => .inl ((hone parent).mp ⟨hmatch.1, hmatch.2, hfirst⟩)
      -- Whatever the parent, the slug is the first label.
      · rintro (hparent | ⟨hmem, parent', -, hparent⟩)
        · exact ((hone parent).mpr hparent).2.2
        · exact ((hone parent').mpr ⟨hmem, hparent⟩).2.2
    next hno =>
      refine ih.trans ⟨.inr, ?_⟩
      rintro (hparent | hparents)
      · obtain ⟨hlength, htail, -⟩ := (hone parent).mpr hparent
        exact absurd ⟨hlength, htail⟩ hno
      · exact hparents

/-- The slug of a host, its dots at the end stripped, is the one it names. -/
theorem slug_eq_some_iff {host : String} :
    SubdomainResolver.slug conf host = .some slug ↔
      HostNames conf.subdomainParentDomain (lowered ((withoutPort host).rdropWhile (· = '.'))) slug := by
  have hnormal : normalHost host = String.ofList (lowered ((withoutPort host).rdropWhile (· = '.'))) := rfl
  have hempty : (splitOnChar '.' (normalHost host)).any (· = "") = true ↔
      [] ∈ (lowered ((withoutPort host).rdropWhile (· = '.'))).splitOn '.' := by
    rw [hnormal, splitOnChar, String.toList_ofList]
    simp [List.any_eq_true, String.ofList_eq_empty_iff]
  unfold SubdomainResolver.slug HostNames
  simp only
  by_cases hlabels : [] ∈ (lowered ((withoutPort host).rdropWhile (· = '.'))).splitOn '.'
  · rw [if_pos (hempty.mpr hlabels)]
    simp [hlabels]
  · rw [if_neg fun h => hlabels (hempty.mp h)]
    simp only [hlabels, not_false_eq_true, true_and]
    cases conf.subdomainParentDomain with
    | some parents =>
      rw [hnormal]
      exact slugForConfiguredParent_eq_some_iff
    | none =>
      rw [hnormal, splitOnChar, String.toList_ofList, List.length_map, List.head?_map]
      generalize (lowered ((withoutPort host).rdropWhile (· = '.'))).splitOn '.' = labels
      have hslug : labels.head?.map String.ofList = .some slug ↔ labels.head? = .some slug.toList := by
        rw [Option.map_eq_some_iff]
        constructor
        · rintro ⟨label, hfirst, rfl⟩
          rw [hfirst, String.toList_ofList]
        · exact fun hfirst => ⟨_, hfirst, String.ofList_toList⟩
      by_cases hlength : 3 ≤ labels.length
      · rw [if_neg (by omega), hslug]
        simp [hlength]
      · rw [if_pos (by omega)]
        simp [hlength]

theorem lookup_eq_some_iff : CachingResolver.subdomain.lookup conf request = .some (.subdomain slug) ↔
    HostNames conf.subdomainParentDomain (lowered ((withoutPort request.host).rdropWhile (· = '.'))) slug := by
  rw [← slug_eq_some_iff]
  simp [CachingResolver.lookup, SubdomainResolver.lookup]

theorem lookup_eq_none_iff : CachingResolver.subdomain.lookup conf request = .none ↔
    ∀ slug, ¬ HostNames conf.subdomainParentDomain (lowered ((withoutPort request.host).rdropWhile (· = '.'))) slug := by
  simp only [← slug_eq_some_iff]
  simp [CachingResolver.lookup, SubdomainResolver.lookup, Option.eq_none_iff_forall_ne_some]

/-! ## Dots at the end -/

theorem rdropWhile_eq_withoutDot {host : List Char} (h : ¬ ['.', '.'] <:+ host) :
    host.rdropWhile (· = '.') = withoutDot host := by
  rcases List.eq_nil_or_concat' host with rfl | ⟨init, c, rfl⟩
  · rfl
  by_cases hc : c = '.'
  · subst hc
    have hdot : withoutDot (init ++ ['.']) = init := by simp [withoutDot]
    rw [List.rdropWhile_concat_pos _ _ _ (by simp), hdot, List.rdropWhile_eq_self_iff]
    intro hne hlast
    refine h ⟨init.dropLast, ?_⟩
    have hinit := List.dropLast_append_getLast hne
    rw [of_decide_eq_true hlast] at hinit
    rw [List.append_cons, hinit]
  · rw [List.rdropWhile_concat_neg _ _ _ (by simpa using hc)]
    simp [withoutDot, hc]

theorem nil_mem_withoutDot {host : List Char} (h : ['.', '.'] <:+ host) :
    [] ∈ (lowered (withoutDot host)).splitOn '.' := by
  obtain ⟨init, rfl⟩ := h
  have hdot : lowered (withoutDot (init ++ ['.', '.'])) = lowered init ++ ['.'] := by
    rw [List.append_cons]
    simp [withoutDot, lowered]
  rw [hdot]
  exact nil_mem_splitOn_concat '.' _

/-! ## The hosts on which the grammar is followed -/

/-- The slug does not depend on the order of the parents. -/
theorem lookup_perm {parents parents' : List String} (hparents : conf.subdomainParentDomain = .some parents)
    (hperm : parents'.Perm parents) :
    CachingResolver.subdomain.lookup { conf with subdomainParentDomain := .some parents' } request =
      CachingResolver.subdomain.lookup conf request := by
  have hslug : SubdomainResolver.slug { conf with subdomainParentDomain := .some parents' } request.host =
      SubdomainResolver.slug conf request.host := by
    refine Option.ext fun slug => ?_
    rw [slug_eq_some_iff, slug_eq_some_iff, hparents]
    simp only [HostNames, hperm.mem_iff]
  simp only [CachingResolver.lookup, SubdomainResolver.lookup, hslug]

theorem resolve_silent {table : TenantTable φ} {clock : Int × Int} {cache : TenantCache φ}
    (h : CachingResolver.subdomain.lookup conf request = .none) :
    CachingResolver.subdomain.resolve conf table clock request cache = .ok .none cache := by
  rw [CachingResolver.resolve, h]
  rfl

/-- The resolver follows the grammar, if and only if a host that ends in
several dots names no slug without them. -/
theorem followsGrammar_iff (conf : ResolverSettings ν) (request : HttpRequest ν) :
    FollowsGrammar conf request ↔ (['.', '.'] <:+ withoutPort request.host →
      ∀ slug, ¬ HostNames conf.subdomainParentDomain
        (lowered ((withoutPort request.host).rdropWhile (· = '.'))) slug) := by
  constructor
  · intro h hdots slug hnames
    have hstripped := (h.looksUp slug).mp (lookup_eq_some_iff.mpr hnames)
    exact hstripped.1 (nil_mem_withoutDot hdots)
  · intro h
    have hsame : ∀ slug,
        HostNames conf.subdomainParentDomain (lowered ((withoutPort request.host).rdropWhile (· = '.'))) slug ↔
          HostNames conf.subdomainParentDomain (lowered (withoutDot (withoutPort request.host))) slug := by
      intro slug
      by_cases hdots : ['.', '.'] <:+ withoutPort request.host
      · exact iff_of_false (h hdots slug) fun hnames => hnames.1 (nil_mem_withoutDot hdots)
      · rw [rdropWhile_eq_withoutDot hdots]
    refine ⟨fun slug => lookup_eq_some_iff.trans (hsame slug), fun _ _ => lookup_perm, fun hnone _ _ _ _ => ?_⟩
    exact resolve_silent (lookup_eq_none_iff.mpr fun slug hnames => hnone slug ((hsame slug).mp hnames))

end

/-! ## A host that ends in two dots -/

namespace TwoDots

def conf : ResolverSettings String where
  subdomainParentDomain := .some ["example.com"]
  uuid _ := .none
  readKey _ := .error .valueError
  truthy value := value ≠ ""
  str value := value

def twice : HttpRequest String where
  host := "shop.example.com..:8000"

theorem twice_not_followsGrammar :
    ¬ ∀ (conf : ResolverSettings String) (request : HttpRequest String), FollowsGrammar conf request := by
  intro hclaim
  have hfound : CachingResolver.subdomain.lookup conf twice = .some (.subdomain "shop") := by rfl
  have hnames := ((hclaim conf twice).looksUp "shop").mp hfound
  exact hnames.1 (nil_mem_withoutDot ⟨"shop.example.com".toList, by decide⟩)

end TwoDots

end Boundary
