import ApiCatalog.Proofs.Catalog.Requirements
import ApiCatalog.Proofs.Text.Lines
import ApiCatalog.Proofs.Text.Order

/-!
# The identity of an endpoint

The id of an entry is the digest of the address, a colon and the sorted methods with commas between
them. If methods hold neither colons nor commas, that text can be taken apart again: the methods
stand after its last colon (`append_inj_of_last`), and between commas (`intercalate_inj`). Sorting
forgets the order of the methods and nothing else (`sortedMethods_eq_iff`). So the text stands
for the address and the set of methods (`identityBytes_eq_iff`).
-/

namespace ApiCatalog

open ApiCatalog.Text

/-! ## Methods -/

/-- A request method as it can be declared: a word without commas and colons. -/
def IsMethodToken (method : String) : Prop :=
  method ≠ "" ∧ ',' ∉ method.toList ∧ ':' ∉ method.toList

instance : DecidablePred IsMethodToken := fun _ => inferInstanceAs (Decidable (_ ∧ _ ∧ _))

/-- Capitals are letters. -/
theorem toUpper_eq_or (c : Char) : c.toUpper = c ∨ 65 ≤ c.toUpper.toNat := by
  unfold Char.toUpper
  split
  · rename_i h
    have hlow : 97 ≤ c.val.toNat := h.1
    have hhigh : c.val.toNat ≤ 122 := h.2
    have hshift : ('A'.val - 'a'.val).toNat = 4294967264 := by decide
    right
    simp only [Char.toNat]
    rw [UInt32.toNat_add, hshift]
    omega
  · exact .inl rfl

theorem not_mem_capitals {c : Char} {method : String} (hc : c.toNat < 65) (h : c ∉ method.toList) :
    c ∉ (capitals method).toList := by
  rw [capitals, String.toList_ofList]
  intro hmem
  obtain ⟨d, hd, rfl⟩ := List.mem_map.1 hmem
  rcases toUpper_eq_or d with hsame | hletter
  · exact h (by rwa [hsame])
  · omega

theorem IsMethodToken.capitals {method : String} (h : IsMethodToken method) :
    IsMethodToken (capitals method) := by
  obtain ⟨hne, hcomma, hcolon⟩ := h
  refine ⟨?_, not_mem_capitals (by decide) hcomma, not_mem_capitals (by decide) hcolon⟩
  intro hempty
  have hlist := congrArg String.toList hempty
  rw [Text.capitals, String.toList_ofList] at hlist
  exact hne (String.toList_inj.1 (List.map_eq_nil_iff.1 hlist))

namespace Endpoint

/-- The methods are the declared ones in capitals, without `HEAD`. -/
def Answers (endpoint : Endpoint) (method : String) : Prop :=
  method ≠ "HEAD" ∧ ∃ declared ∈ endpoint.declaredMethods, capitals declared = method

/-- Two endpoints with the same address that answer the same methods. -/
def SameTarget (endpoint other : Endpoint) : Prop :=
  endpoint.uri = other.uri ∧ ∀ method, endpoint.Answers method ↔ other.Answers method

/-- The bytes that the id of the endpoint's entry is the digest of. -/
def identityBytes (endpoint : Endpoint) : ByteArray :=
  (Entry.identity endpoint.uri endpoint.methods).toUTF8

/-- The methods in their order. -/
def sortedMethods (endpoint : Endpoint) : List String :=
  endpoint.methods.mergeSort fun a b => decide (a ≤ b)

variable {endpoint other : Endpoint}

theorem mem_sortedMethods {method : String} :
    method ∈ endpoint.sortedMethods ↔ endpoint.Answers method := by
  rw [sortedMethods, List.mem_mergeSort, mem_methods, Answers]

theorem pairwise_sortedMethods (endpoint : Endpoint) :
    endpoint.sortedMethods.Pairwise (· ≤ ·) :=
  Text.pairwise_mergeSort_keyLE id endpoint.methods

/-- Sorting forgets the order of the methods and nothing else. -/
theorem sortedMethods_eq_iff :
    endpoint.sortedMethods = other.sortedMethods ↔
      ∀ method, endpoint.Answers method ↔ other.Answers method := by
  simp only [← mem_sortedMethods]
  constructor
  · intro hsorted method
    rw [hsorted]
  · intro hsame
    have hnodup : ∀ e : Endpoint, e.sortedMethods.Nodup := fun e =>
      (List.mergeSort_perm _ _).nodup_iff.2 (nodup_distinct _)
    have hperm := (List.perm_ext_iff_of_nodup (hnodup endpoint) (hnodup other)).2 hsame
    exact hperm.eq_of_pairwise (fun a b _ _ => String.le_antisymm) (pairwise_sortedMethods _)
      (pairwise_sortedMethods _)

theorem toList_identity (endpoint : Endpoint) :
    (Entry.identity endpoint.uri endpoint.methods).toList =
      endpoint.uri.toList ++
        ':' :: [','].intercalate (endpoint.sortedMethods.map String.toList) := by
  simp [Entry.identity, sortedMethods, String.toList_intercalate]

/-- The methods of an endpoint that declares words are words. -/
theorem isMethodToken_of_mem (h : ∀ declared ∈ endpoint.declaredMethods, IsMethodToken declared)
    {method : String} (hmethod : method ∈ endpoint.sortedMethods) : IsMethodToken method := by
  obtain ⟨-, declared, hdeclared, rfl⟩ := mem_sortedMethods.1 hmethod
  exact (h declared hdeclared).capitals

/-- The text of the identity stands for the address and the set of methods. -/
theorem identity_eq_iff (h : ∀ declared ∈ endpoint.declaredMethods, IsMethodToken declared)
    (hother : ∀ declared ∈ other.declaredMethods, IsMethodToken declared) :
    Entry.identity endpoint.uri endpoint.methods = Entry.identity other.uri other.methods ↔
      endpoint.SameTarget other := by
  have hparts : ∀ e : Endpoint, (∀ declared ∈ e.declaredMethods, IsMethodToken declared) →
      ∀ part ∈ e.sortedMethods.map String.toList, part ≠ [] ∧ ',' ∉ part ∧ ':' ∉ part := by
    intro e he part hpart
    obtain ⟨method, hmethod, rfl⟩ := List.mem_map.1 hpart
    obtain ⟨hne, hcomma, hcolon⟩ := isMethodToken_of_mem he hmethod
    exact ⟨fun hnil => hne (String.toList_inj.1 hnil), hcomma, hcolon⟩
  have hcolon : ∀ e : Endpoint, (∀ declared ∈ e.declaredMethods, IsMethodToken declared) →
      ':' ∉ [','].intercalate (e.sortedMethods.map String.toList) := fun e he =>
    not_mem_intercalate (by decide) fun part hpart => (hparts e he part hpart).2.2
  rw [SameTarget, ← sortedMethods_eq_iff, ← String.toList_inj, toList_identity, toList_identity]
  constructor
  · intro htext
    obtain ⟨huri, hjoined⟩ := append_inj_of_last (hcolon endpoint h) (hcolon other hother) htext
    have hmethods := intercalate_inj
      (fun part hpart => ⟨(hparts endpoint h part hpart).1, (hparts endpoint h part hpart).2.1⟩)
      (fun part hpart => ⟨(hparts other hother part hpart).1, (hparts other hother part hpart).2.1⟩)
      hjoined
    exact ⟨String.toList_inj.1 huri, (List.map_inj_right fun _ _ => String.toList_inj.1).1 hmethods⟩
  · rintro ⟨huri, hmethods⟩
    rw [huri, hmethods]

end Endpoint

/-- The id of an entry is that of its endpoint's address and methods. -/
theorem id_of_document {compiler : Compiler} {provider : RuleProvider} {endpoint : Endpoint}
    {entry : Entry} (h : compiler.document provider endpoint = .ok entry) :
    entry.id = Digest.hex endpoint.identityBytes.toList := by
  obtain ⟨dossier, hdossier, hentry⟩ := exists_of_bind_ok h
  have hendpoint : dossier.endpoint = endpoint := by
    rw [Dossier.ofEndpoint] at hdossier
    split at hdossier
    · simp at hdossier
    · obtain ⟨descriptions, -, hdossier⟩ := exists_of_bind_ok hdossier
      obtain ⟨defaults, -, hdossier⟩ := exists_of_bind_ok hdossier
      exact congrArg Dossier.endpoint (Except.ok.inj hdossier).symm
  obtain ⟨resource, -, hentry⟩ := exists_of_bind_ok hentry
  obtain ⟨pathParameters, -, hentry⟩ := exists_of_bind_ok hentry
  obtain ⟨queryParameters, -, hentry⟩ := exists_of_bind_ok hentry
  obtain ⟨responses, -, hentry⟩ := exists_of_bind_ok hentry
  rw [← Except.ok.inj hentry, hendpoint]
  rfl

/-- Two byte strings with the same digest. -/
def Digest.Collide (a b : ByteArray) : Prop := a ≠ b ∧ Digest.hex a.toList = Digest.hex b.toList

/-- The bytes of an identity stand for the address and the set of methods in capitals without
`HEAD`, whatever the order, the case or the repetition of the methods that are declared. So do the
ids of entries, unless the digests of these bytes collide. -/
theorem identityBytes_eq_iff (endpoint other : Endpoint)
    (h : ∀ declared ∈ endpoint.declaredMethods, IsMethodToken declared)
    (hother : ∀ declared ∈ other.declaredMethods, IsMethodToken declared) :
    (endpoint.identityBytes = other.identityBytes ↔ endpoint.SameTarget other) ∧
      ∀ (compiler compiler' : Compiler) (provider provider' : RuleProvider) (entry entry' : Entry),
        compiler.document provider endpoint = .ok entry →
        compiler'.document provider' other = .ok entry' →
        (entry.id = entry'.id ↔ endpoint.SameTarget other ∨
          Digest.Collide endpoint.identityBytes other.identityBytes) := by
  have hbytes : endpoint.identityBytes = other.identityBytes ↔ endpoint.SameTarget other := by
    rw [Endpoint.identityBytes, Endpoint.identityBytes, String.toUTF8_eq_toByteArray,
      String.toUTF8_eq_toByteArray, String.toByteArray_inj, Endpoint.identity_eq_iff h hother]
  refine ⟨hbytes, fun compiler compiler' provider provider' entry entry' hentry hentry' => ?_⟩
  rw [id_of_document hentry, id_of_document hentry', ← hbytes, Digest.Collide]
  by_cases hsame : endpoint.identityBytes = other.identityBytes
  · simp [hsame]
  · simp [hsame]

/-- An endpoint whose address holds the marks that stand between address and methods. -/
def usersEndpoint (declaredMethods : List String) : Endpoint where
  uri := "/users:GET,POST"
  declaredMethods
  handler := .method { owner := "Users", name := "index", comment := { summary := "Users" } }

theorem answers_usersEndpoint {declaredMethods : List String} {method : String} :
    (usersEndpoint declaredMethods).Answers method ↔
      method ≠ "HEAD" ∧ method ∈ declaredMethods.map capitals := by
  simp [Endpoint.Answers, usersEndpoint]

theorem exists_document_usersEndpoint (declaredMethods : List String) :
    ∃ entry, (Compiler.mk {} []).document .none (usersEndpoint declaredMethods) = .ok entry := by
  have htokens : Placeholder.tokens "/users:GET,POST" = [] := by decide
  rw [← faultOf_eq_none_iff, faultOf_document]
  simp [Requirement.all, Requirement.fault?, Endpoint.tagsNamed, Endpoint.ownTagsNamed,
    usersEndpoint, htokens, Handler.method?, RuleProvider.none]

/-- The same methods in another order and case, with repetitions and `HEAD`, give the same bytes and
the same id, and fewer methods give other bytes. -/
theorem identityBytes_eq_iff_usersEndpoint :
    (∀ declared ∈ ["get", "HEAD", "POST"], IsMethodToken declared) ∧
      (∀ declared ∈ ["Post", "GET", "get"], IsMethodToken declared) ∧
      (usersEndpoint ["get", "HEAD", "POST"]).identityBytes =
        (usersEndpoint ["Post", "GET", "get"]).identityBytes ∧
      (usersEndpoint ["get", "HEAD", "POST"]).identityBytes ≠
        (usersEndpoint ["Post"]).identityBytes ∧
      ∃ entry entry',
        (Compiler.mk {} []).document .none (usersEndpoint ["get", "HEAD", "POST"]) = .ok entry ∧
        (Compiler.mk {} []).document .none (usersEndpoint ["Post", "GET", "get"]) = .ok entry' ∧
        entry.id = entry'.id := by
  have hwords : ∀ declared ∈ ["get", "HEAD", "POST"], IsMethodToken declared := by decide
  have hothers : ∀ declared ∈ ["Post", "GET", "get"], IsMethodToken declared := by decide
  have hsame : (usersEndpoint ["get", "HEAD", "POST"]).SameTarget
      (usersEndpoint ["Post", "GET", "get"]) := by
    have hcapitals : ["get", "HEAD", "POST"].map capitals = ["GET", "HEAD", "POST"] := by decide
    have hcapitals' : ["Post", "GET", "get"].map capitals = ["POST", "GET", "GET"] := by decide
    refine ⟨rfl, fun method => ?_⟩
    rw [answers_usersEndpoint, answers_usersEndpoint, hcapitals, hcapitals']
    simp only [List.mem_cons, List.not_mem_nil, or_false]
    grind
  have hdiffer : ¬ (usersEndpoint ["get", "HEAD", "POST"]).SameTarget (usersEndpoint ["Post"]) := by
    rintro ⟨-, hmethods⟩
    have hget := (hmethods "GET").1 (answers_usersEndpoint.2 (by decide))
    exact absurd (answers_usersEndpoint.1 hget) (by decide)
  obtain ⟨hbytes, hids⟩ := identityBytes_eq_iff (usersEndpoint ["get", "HEAD", "POST"])
    (usersEndpoint ["Post", "GET", "get"]) hwords hothers
  obtain ⟨hfewer, -⟩ := identityBytes_eq_iff (usersEndpoint ["get", "HEAD", "POST"])
    (usersEndpoint ["Post"]) hwords (by decide)
  obtain ⟨entry, hentry⟩ := exists_document_usersEndpoint ["get", "HEAD", "POST"]
  obtain ⟨entry', hentry'⟩ := exists_document_usersEndpoint ["Post", "GET", "get"]
  exact ⟨hwords, hothers, hbytes.2 hsame, fun h => hdiffer (hfewer.1 h), entry, entry', hentry,
    hentry', (hids _ _ _ _ entry entry' hentry hentry').2 (.inl hsame)⟩

end ApiCatalog
