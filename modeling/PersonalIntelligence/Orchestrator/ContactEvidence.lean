import PersonalIntelligence.Orchestrator.AnalysisRange

/-!
# The messages that contact claims cite

`compute_message_features` puts the e-mail addresses, phone numbers and links of all
messages of a window into three sets.  `_heuristic_analysis` makes a claim of each address,
each number and the first three links, and has no better evidence to give than the first
message of the window.  A claim is evidenced by the message it cites (`CitesOwn`) exactly if
whatever is claimed stands in that message (`FirstSays`).
-/

namespace PersonalIntelligence
namespace Orchestrator

open PyText Regex

/-- What a contact claim is about. -/
inductive Contact where
  | email
  | phone
  | link
  deriving DecidableEq, Repr

namespace Contact

def predicate : Contact → String
  | email => "shared_email"
  | phone => "shared_phone"
  | link => "shared_link"

theorem predicate_injective : Function.Injective predicate := by
  intro x y h
  cases x <;> cases y <;> first | rfl | exact absurd h (by decide)

variable [CharData]

/-- What the pattern extracts from a text. -/
def found (text : String) : Contact → List String
  | email => findall emailRe text
  | phone => (finditer phoneRe text).map fun m => compactPhone m.text
  | link => findall linkRe text

/-- What is claimed of a window: everything that is found, but for links only the first
three. -/
def claimed (messages : List WindowMessagePayload) (kind : Contact) : List String :=
  let all := sortedSet (messages.flatMap fun msg => kind.found msg.text)
  match kind with
  | link => all.take 3
  | _ => all

end Contact

section Evidence

variable [CharData] {messages : List WindowMessagePayload}

/-- Every contact claim cites messages of the window from whose own text its object is
extracted. -/
def CitesOwn (messages : List WindowMessagePayload) (claims : List StructuredClaim) : Prop :=
  ∀ c ∈ claims, ∀ kind : Contact, c.predicate = kind.predicate → ∀ id ∈ c.evidenceMessageIds,
    ∃ m ∈ messages, m.tgMessageId = id ∧ ∃ object ∈ kind.found m.text, c.object = some object

/-- What is claimed of the window stands in its first message, or in another one under the
same id. -/
def FirstSays (messages : List WindowMessagePayload) (hne : messages ≠ []) : Prop :=
  ∀ kind : Contact, ∀ object ∈ kind.claimed messages,
    ∃ m ∈ messages, m.tgMessageId = (messages.head hne).tgMessageId ∧ object ∈ kind.found m.text

/-- What a claim of the kind is made of. -/
structure Claims (messages : List WindowMessagePayload) (hne : messages ≠ []) (kind : Contact)
    (object : String) (c : StructuredClaim) : Prop where
  predicate : c.predicate = kind.predicate
  object : c.object = some object
  evidence : c.evidenceMessageIds = [(messages.head hne).tgMessageId]

omit [CharData] in
theorem head_id (hne : messages ≠ []) : [(messages.head?.map (·.tgMessageId)).getD 0] =
    [(messages.head hne).tgMessageId] := by
  rw [List.head?_eq_some_head hne]
  rfl

/-- The features list what is found in any message. -/
theorem features_claimed (hne : messages ≠ []) (chatType : ChatType) :
    (computeMessageFeatures messages chatType).emails = Contact.email.claimed messages ∧
      (computeMessageFeatures messages chatType).phones = Contact.phone.claimed messages ∧
      (computeMessageFeatures messages chatType).links.take 3 = Contact.link.claimed messages := by
  simp only [computeMessageFeatures, if_neg hne, List.flatMap_map]
  exact ⟨rfl, rfl, rfl⟩

/-- A claim is of one of the three kinds, -/
theorem claims_of_mem (hne : messages ≠ []) (chatType : ChatType) {c : StructuredClaim}
    (hc : c ∈ heuristicClaims messages (computeMessageFeatures messages chatType)) :
    ∃ kind, ∃ object ∈ Contact.claimed messages kind, Claims messages hne kind object c := by
  obtain ⟨hemails, hphones, hlinks⟩ := features_claimed hne chatType
  unfold heuristicClaims at hc
  rw [hemails, hphones, hlinks] at hc
  simp only [List.mem_append, List.mem_map] at hc
  rcases hc with (⟨email, hemail, rfl⟩ | ⟨phone, hphone, rfl⟩) | ⟨link, hlink, rfl⟩
  · exact ⟨.email, email, hemail, rfl, rfl, head_id hne⟩
  · exact ⟨.phone, phone, hphone, rfl, rfl, head_id hne⟩
  · exact ⟨.link, link, hlink, rfl, rfl, head_id hne⟩

/-- and there is one of whatever is claimed. -/
theorem exists_claim (hne : messages ≠ []) (chatType : ChatType) {kind : Contact}
    {object : String} (hobject : object ∈ kind.claimed messages) :
    ∃ c ∈ heuristicClaims messages (computeMessageFeatures messages chatType),
      Claims messages hne kind object c := by
  obtain ⟨hemails, hphones, hlinks⟩ := features_claimed hne chatType
  unfold heuristicClaims
  rw [hemails, hphones, hlinks]
  cases kind with
  | email =>
    exact ⟨_, List.mem_append_left _ (List.mem_append_left _ (List.mem_map_of_mem hobject)), rfl,
      rfl, head_id hne⟩
  | phone =>
    exact ⟨_, List.mem_append_left _ (List.mem_append_right _ (List.mem_map_of_mem hobject)), rfl,
      rfl, head_id hne⟩
  | link =>
    exact ⟨_, List.mem_append_right _ (List.mem_map_of_mem hobject), rfl, rfl, head_id hne⟩

/-- The claims cite their own messages exactly if the first message says it all. -/
theorem citesOwn_heuristicClaims_iff (hne : messages ≠ []) (chatType : ChatType) :
    CitesOwn messages (heuristicClaims messages (computeMessageFeatures messages chatType)) ↔
      FirstSays messages hne := by
  constructor
  · intro h kind object hobject
    obtain ⟨c, hc, hclaims⟩ := exists_claim hne chatType hobject
    have hcited : (messages.head hne).tgMessageId ∈ c.evidenceMessageIds := by
      rw [hclaims.evidence]
      exact List.mem_singleton_self _
    obtain ⟨m, hm, hid, object', hobject', heq⟩ := h c hc kind hclaims.predicate _ hcited
    rw [hclaims.object, Option.some.injEq] at heq
    exact ⟨m, hm, hid, heq ▸ hobject'⟩
  · intro h c hc kind hkind id hid
    obtain ⟨kind', object, hobject, hclaims⟩ := claims_of_mem hne chatType hc
    have hsame : kind = kind' :=
      Contact.predicate_injective (hkind.symm.trans hclaims.predicate)
    subst hsame
    obtain ⟨m, hm, hfirst, hfound⟩ := h kind object hobject
    rw [hclaims.evidence, List.mem_singleton] at hid
    exact ⟨m, hm, hfirst.trans hid.symm, object, hfound, hclaims.object⟩

/-- The claims of an analysis. -/
theorem claims_of_heuristicAnalysis {w : Ident} {features : MessageFeatureSet}
    {r : StructuredAnalysisResult} (h : heuristicAnalysis w messages features = .ok r) :
    r.claims = heuristicClaims messages features := by
  obtain ⟨signals, -, hresult⟩ := bind_eq_ok_iff.mp h
  cases hresult
  rfl

/-- **The evidence of contact claims.**  Every contact claim of the heuristic analysis cites
messages that say what is claimed, exactly if the analysis raises or the first message says
all that is claimed. -/
theorem heuristicAnalysis_citesOwn_iff (sourceWindowId : Ident)
    (messages : List WindowMessagePayload) (chatType : ChatType) (hne : messages ≠ []) :
    (∀ r, heuristicAnalysis sourceWindowId messages (computeMessageFeatures messages chatType) =
        .ok r → CitesOwn messages r.claims) ↔
      (HasDominantSender (computeMessageFeatures messages chatType) → FirstSays messages hne) := by
  rw [← @heuristicAnalysis_isOk_iff _ messages _ (senderCount_pos messages chatType) sourceWindowId]
  constructor
  · rintro h ⟨r, hr⟩
    have hcites := h r hr
    rw [claims_of_heuristicAnalysis hr] at hcites
    exact (citesOwn_heuristicClaims_iff hne chatType).mp hcites
  · intro h r hr
    rw [claims_of_heuristicAnalysis hr]
    exact (citesOwn_heuristicClaims_iff hne chatType).mpr (h ⟨r, hr⟩)

end Evidence

/-! ## Two messages -/

/-- A window in which the second message gives an address. -/
def lateAddress : List WindowMessagePayload :=
  [{ tgMessageId := 1, tgSenderId := some 1, text := "hi", occurredAt := 0 },
   { tgMessageId := 2, tgSenderId := some 1, text := "a@b.co", occurredAt := seconds 1 }]

/-- The same messages in the other order: the first one gives the address. -/
theorem heuristicAnalysis_citesOwn_iff_reversed :
    ∃ r, @heuristicAnalysis basicCharData 1 lateAddress.reverse
      (@computeMessageFeatures basicCharData lateAddress.reverse .private) = .ok r ∧
        @CitesOwn basicCharData lateAddress.reverse r.claims := by
  let _ := basicCharData
  have hdominant : HasDominantSender (computeMessageFeatures lateAddress.reverse .private) :=
    .inr (by decide)
  obtain ⟨r, hr⟩ := (@heuristicAnalysis_isOk_iff _ lateAddress.reverse _
    (senderCount_pos lateAddress.reverse .private) 1).mpr hdominant
  refine ⟨r, hr, (heuristicAnalysis_citesOwn_iff 1 lateAddress.reverse .private
    (by decide)).mpr (fun _ => ?_) r hr⟩
  intro kind
  cases kind with
  | email => decide +kernel
  | phone => decide +kernel
  | link => decide +kernel

/-- The address is claimed with the first message as evidence. -/
theorem not_citesOwn_lateAddress :
    ∃ r, @heuristicAnalysis basicCharData 1 lateAddress
      (@computeMessageFeatures basicCharData lateAddress .private) = .ok r ∧
        ¬ @CitesOwn basicCharData lateAddress r.claims := by
  let _ := basicCharData
  have hdominant : HasDominantSender (computeMessageFeatures lateAddress .private) :=
    .inr (by decide)
  obtain ⟨r, hr⟩ := (@heuristicAnalysis_isOk_iff _ lateAddress _
    (senderCount_pos lateAddress .private) 1).mpr hdominant
  refine ⟨r, hr, fun hcites => ?_⟩
  rw [claims_of_heuristicAnalysis hr, citesOwn_heuristicClaims_iff (by decide)] at hcites
  exact absurd (hcites .email "a@b.co" (by decide +kernel)) (by decide)

end Orchestrator
end PersonalIntelligence
