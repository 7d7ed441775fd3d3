import PersonalIntelligence.Orchestrator.Analysis
import Mathlib.Tactic.FieldSimp

/-!
# When the analysis step returns

`AnalysisRouter.analyze` ends in a fallback that asks nobody, so it should always
return, and every score in the result should lie in `[0, 1]`.  The second half
holds without condition: a reply is validated and clamped, and a constructor
refuses a score outside the range (`inRange_of_analyze`).

The first half is the constructors' business.  Five of the six heuristic scores
are clamped on both sides.  The score of `initiative_balance` is
`3/2 - dominant/total`, clamped from below only, so it passes `1` as soon as the
most active sender wrote less than about half of the messages (`999/2000` once the
rounding to three decimals is taken into account).  The constructor then raises,
inside the fallback.

`analyze_returns_iff` says exactly when this happens: the fallback is sound when
some sender dominates (`HasDominantSender`), and otherwise the call returns only if
a provider's reply stands on its own (`ReplyStands`): it brings signals and,
when it is to be translated, a translation that also parses.
-/

namespace PersonalIntelligence
namespace Orchestrator

open PyText Regex

/-! ## Constructors -/

/-- A list of drafts passes its constructors when every score is in range. -/
theorem mapM_validate_of_inRange :
    ∀ {drafts : List AnalyticsSignal}, (∀ s ∈ drafts, s.InRange) →
      drafts.mapM (·.validate) = .ok drafts
  | [], _ => rfl
  | s :: rest, h => by
    have hs := AnalyticsSignal.validate_of_inRange (h s (List.mem_cons_self ..))
    have ih := mapM_validate_of_inRange fun t ht => h t (List.mem_cons_of_mem _ ht)
    rw [List.mapM_cons, hs, ih]
    rfl

/-- One score out of range and the list is not built. -/
theorem mapM_validate_of_not_inRange :
    ∀ {drafts : List AnalyticsSignal} {s : AnalyticsSignal}, s ∈ drafts → ¬ s.InRange →
      drafts.mapM (·.validate) = .error .validation
  | t :: rest, s, hs, hr => by
    rw [List.mapM_cons]
    by_cases ht : t.InRange
    · rw [AnalyticsSignal.validate_of_inRange ht]
      rcases List.mem_cons.mp hs with rfl | hs
      · exact absurd ht hr
      · rw [mapM_validate_of_not_inRange hs hr]
        rfl
    · rw [AnalyticsSignal.validate_of_not_inRange ht]
      rfl

theorem inRange_of_mapM_validate {drafts signals : List AnalyticsSignal}
    (h : drafts.mapM (·.validate) = .ok signals) : ∀ s ∈ signals, s.InRange := by
  have hall : ∀ s ∈ drafts, s.InRange := by
    intro s hs
    by_contra hr
    rw [mapM_validate_of_not_inRange hs hr] at h
    cases h
  rw [mapM_validate_of_inRange hall] at h
  cases h
  exact hall

/-! ## Scores -/

theorem clamp_mem_unit (x : ℚ) : UnitRange (max 0 (min 1 x)) :=
  ⟨le_max_left _ _, max_le (by norm_num) (min_le_left _ _)⟩

theorem clampUnit_mem_unit (x : ℚ) : UnitRange (clampUnit x) :=
  ⟨le_min (le_max_right _ _) (by norm_num), min_le_right _ _⟩

theorem round3_inRange {x : ℚ} (h : UnitRange x) : UnitRange (Rounding.round3 x) :=
  Rounding.round3_mem_unit h.1 h.2

theorem responsiveness_mem_unit (features : MessageFeatureSet) :
    UnitRange (responsiveness features) := by
  unfold responsiveness
  dsimp only
  split_ifs
  · exact ⟨by norm_num, le_refl _⟩
  · exact clamp_mem_unit _

/-- The largest count is part of the sum. -/
theorem dominantCount_le_senderCount (features : MessageFeatureSet) :
    dominantCount features ≤ senderCount features := by
  unfold dominantCount senderCount
  induction features.authorActivity.map (·.2) with
  | nil => exact le_refl _
  | cons n rest ih =>
    rw [List.foldr_cons, List.sum_cons]
    exact max_le (Nat.le_add_right _ _) (ih.trans (Nat.le_add_left _ _))

/-- A window's features count at least one message for every sender they name. -/
theorem senderCount_pos [CharData] (messages : List WindowMessagePayload) (chatType : ChatType)
    (h : (computeMessageFeatures messages chatType).authorActivity ≠ []) :
    0 < senderCount (computeMessageFeatures messages chatType) := by
  by_cases hm : messages = []
  · simp [computeMessageFeatures, hm] at h
  · rw [senderCount]
    simp only [computeMessageFeatures, if_neg hm] at h ⊢
    obtain ⟨x, rest, hx⟩ := List.exists_cons_of_ne_nil h
    have hpos := pos_of_mem_counter ((messages.filterMap (·.tgSenderId)).map toString) x
      (hx ▸ List.mem_cons_self ..)
    rw [hx, List.map_cons, List.sum_cons]
    omega

/-- The most active sender wrote at least `999/2000` of the messages that have a
sender, or no message has one. -/
def HasDominantSender (features : MessageFeatureSet) : Prop :=
  features.authorActivity = [] ∨ 999 * senderCount features ≤ 2000 * dominantCount features

/-- **The score of `initiative_balance`.**  Up to rounding it is
`3/2 - dominant/total`, and it is accepted exactly when some sender dominates. -/
theorem initiativeScore_inRange_iff {features : MessageFeatureSet}
    (hpos : features.authorActivity ≠ [] → 0 < senderCount features) :
    UnitRange (Rounding.round3 (max (initiativeBalance features) 0)) ↔
      HasDominantSender features := by
  unfold HasDominantSender
  by_cases hempty : features.authorActivity = []
  · simp only [initiativeBalance, hempty, true_or, iff_true]
    exact round3_inRange ⟨by norm_num, by norm_num⟩
  · have ht : (0 : ℚ) < senderCount features := by exact_mod_cast hpos hempty
    have ht1 : (1 : ℚ) ≤ senderCount features := by exact_mod_cast hpos hempty
    have hd : (dominantCount features : ℚ) ≤ senderCount features := by
      exact_mod_cast dominantCount_le_senderCount features
    have hshare : (dominantCount features / senderCount features : ℚ) ≤ 1 := by
      rwa [div_le_one ht]
    have hscore : max (initiativeBalance features) 0 =
        3 / 2 - dominantCount features / senderCount features := by
      have hmin : min 1 (dominantCount features / senderCount features - 1 / 2 : ℚ) =
          dominantCount features / senderCount features - 1 / 2 :=
        min_eq_right (by linarith)
      rw [initiativeBalance, if_neg hempty, max_eq_left ht1, hmin]
      rw [max_eq_left (by linarith)]
      ring
    have hbound : (3 / 2 - dominantCount features / senderCount features : ℚ) ≤ 2001 / 2000 ↔
        999 * senderCount features ≤ 2000 * dominantCount features := by
      have hcast : (999 * senderCount features ≤ 2000 * dominantCount features) ↔
          (999 * senderCount features : ℚ) ≤ 2000 * dominantCount features := by
        exact_mod_cast Iff.rfl
      have hfrac : (999 / 2000 : ℚ) ≤ dominantCount features / senderCount features ↔
          (999 * senderCount features : ℚ) ≤ 2000 * dominantCount features := by
        rw [div_le_div_iff₀ (by norm_num) ht, mul_comm (dominantCount features : ℚ)]
      rw [hcast, ← hfrac]
      constructor <;> intro h <;> linarith
    rw [hscore, or_iff_right hempty, ← hbound, ← Rounding.round3_le_one_iff]
    exact and_iff_right (Rounding.round3_nonneg (by linarith))

/-! ## The fallback -/

section Fallback

variable [CharData]

/-- Five of the six drafts are always accepted. -/
theorem signalDrafts_inRange_iff (messages : List WindowMessagePayload)
    (features : MessageFeatureSet) :
    (∀ s ∈ signalDrafts messages features, s.InRange) ↔
      UnitRange (Rounding.round3 (max (initiativeBalance features) 0)) := by
  simp only [signalDrafts, List.forall_mem_cons, List.not_mem_nil, false_implies, implies_true,
    and_true, AnalyticsSignal.InRange]
  constructor
  · exact fun h => h.2.1
  · intro h
    refine ⟨round3_inRange (responsiveness_mem_unit features), h,
      round3_inRange (topicDriftScore_mem_unit messages), round3_inRange ?_,
      round3_inRange (clamp_mem_unit _), round3_inRange (clamp_mem_unit _)⟩
    exact ⟨le_min (le_max_right _ _) (by norm_num), min_le_right _ _⟩

/-- Features as `compute_message_features` leaves them: a named sender has written. -/
def CountsSenders (features : MessageFeatureSet) : Prop :=
  features.authorActivity ≠ [] → 0 < senderCount features

variable {messages : List WindowMessagePayload} {features : MessageFeatureSet}

theorem heuristicSignals_of_dominant (hpos : CountsSenders features)
    (h : HasDominantSender features) :
    heuristicSignals messages features = .ok (signalDrafts messages features) :=
  mapM_validate_of_inRange
    ((signalDrafts_inRange_iff messages features).mpr ((initiativeScore_inRange_iff hpos).mpr h))

theorem heuristicSignals_of_not_dominant (hpos : CountsSenders features)
    (h : ¬ HasDominantSender features) :
    heuristicSignals messages features = .error .validation := by
  have hno : ¬ ∀ s ∈ signalDrafts messages features, s.InRange := fun hall =>
    h ((initiativeScore_inRange_iff hpos).mp ((signalDrafts_inRange_iff _ _).mp hall))
  obtain ⟨s, hs⟩ := not_forall.mp hno
  obtain ⟨hs, hr⟩ := Classical.not_imp.mp hs
  exact mapM_validate_of_not_inRange hs hr

theorem inRange_of_heuristicAnalysis {w : Ident} {r : StructuredAnalysisResult}
    (h : heuristicAnalysis w messages features = .ok r) : r.InRange := by
  unfold heuristicAnalysis at h
  cases hs : heuristicSignals messages features with
  | error e => rw [hs] at h; cases h
  | ok signals =>
    rw [hs] at h
    cases h
    refine ⟨?_, ?_, inRange_of_mapM_validate hs, by constructor <;> norm_num⟩
    · intro c hc
      simp only [heuristicClaims, List.mem_append, List.mem_map] at hc
      rcases hc with (⟨_, -, rfl⟩ | ⟨_, -, rfl⟩) | ⟨_, -, rfl⟩ <;>
        constructor <;> norm_num [contactClaim]
    · intro t ht
      simp only [heuristicTasks, List.mem_map] at ht
      obtain ⟨_, -, rfl⟩ := ht
      exact ⟨⟨by norm_num, by norm_num⟩, by constructor <;> norm_num⟩

theorem heuristicAnalysis_isOk_iff (hpos : CountsSenders features) (w : Ident) :
    (∃ r, heuristicAnalysis w messages features = .ok r) ↔ HasDominantSender features := by
  unfold heuristicAnalysis
  constructor
  · rintro ⟨r, hr⟩
    by_contra h
    rw [heuristicSignals_of_not_dominant hpos h] at hr
    cases hr
  · intro h
    rw [heuristicSignals_of_dominant hpos h]
    exact ⟨_, rfl⟩

/-! ## Replies -/

omit [CharData] in
/-- A sequence of two steps returns when both do. -/
theorem bind_eq_ok_iff {α β : Type} {x : Except Exc α} {f : α → Except Exc β} {b : β} :
    (x >>= f) = .ok b ↔ ∃ a, x = .ok a ∧ f a = .ok b := by
  cases x with
  | error e => simp [bind, Except.bind]
  | ok a => simp [bind, Except.bind]

omit [CharData] in
theorem safeSignals_eq_nil_iff (signals : List AnalyticsSignal) :
    safeSignals messages signals = [] ↔ signals = [] := List.map_eq_nil_iff

theorem inRange_of_sanitizeResult {result r : StructuredAnalysisResult}
    (h : sanitizeResult result messages features = .ok r) : r.InRange := by
  have hclaims : ∀ c ∈ safeClaims messages result.claims, c.InRange := by
    intro c hc
    obtain ⟨d, -, rfl⟩ := List.mem_map.mp hc
    exact clampUnit_mem_unit _
  have htasks : ∀ t ∈ safeTasks messages result.tasks, t.InRange := by
    intro t ht
    obtain ⟨d, -, rfl⟩ := List.mem_map.mp ht
    exact ⟨⟨le_min (le_max_right _ _) (by norm_num), min_le_right _ _⟩, clampUnit_mem_unit _⟩
  unfold sanitizeResult at h
  split_ifs at h with hnil
  · cases hs : heuristicSignals messages features with
    | error e => rw [hs] at h; cases h
    | ok signals =>
      rw [hs] at h
      cases h
      exact ⟨hclaims, htasks, inRange_of_mapM_validate hs, clampUnit_mem_unit _⟩
  · cases h
    refine ⟨hclaims, htasks, ?_, clampUnit_mem_unit _⟩
    intro s hs
    obtain ⟨t, -, rfl⟩ := List.mem_map.mp hs
    exact clampUnit_mem_unit _

/-- A result with signals of its own, sanitised: the heuristics have no part in it. -/
def sanitized (result : StructuredAnalysisResult) (messages : List WindowMessagePayload) :
    StructuredAnalysisResult :=
  { result with
    claims := safeClaims messages result.claims
    tasks := safeTasks messages result.tasks
    analyticsSignals := safeSignals messages result.analyticsSignals
    confidence := clampUnit result.confidence }

theorem sanitizeResult_of_signals {result : StructuredAnalysisResult}
    (h : result.analyticsSignals ≠ []) :
    sanitizeResult result messages features = .ok (sanitized result messages) := by
  unfold sanitizeResult
  rw [if_neg (mt (safeSignals_eq_nil_iff _).mp h)]
  rfl

/-- Without a dominant sender the sanitiser returns only what needs no heuristics. -/
theorem sanitizeResult_eq_ok_iff (hpos : CountsSenders features)
    (hd : ¬ HasDominantSender features) {result r : StructuredAnalysisResult} :
    sanitizeResult result messages features = .ok r ↔
      result.analyticsSignals ≠ [] ∧ sanitized result messages = r := by
  by_cases hnil : result.analyticsSignals = []
  · unfold sanitizeResult
    rw [if_pos ((safeSignals_eq_nil_iff _).mpr hnil),
      heuristicSignals_of_not_dominant hpos hd]
    simp [hnil, bind, Except.bind]
  · rw [sanitizeResult_of_signals hnil]
    simp [hnil]

namespace AnalysisRouter

variable (router : AnalysisRouter) {w : Ident}

/-- The reply holds JSON that validates, and the result brings at least one signal. -/
def Reads (raw : String) (result : ValidatedResult) : Prop :=
  ∃ block, jsonBlock raw = some block ∧ router.modelValidate block = .ok result ∧
    result.val.analyticsSignals ≠ []

/-- The sanitised result of a reply for the window `w`. -/
def answerOf (w : Ident) (messages : List WindowMessagePayload) (result : ValidatedResult) :
    StructuredAnalysisResult := sanitized { result.val with sourceWindowId := w } messages

/-- A provider whose reply needs no help from the heuristics: it is available, its
reply reads, and if the result is to be translated then the translation reads too. -/
def ReplyStands (w : Ident) (messages : List WindowMessagePayload)
    (features : MessageFeatureSet) (client : Provider) : Prop :=
  client.isAvailable = true ∧
    ∃ raw result, client.completeText (.analysis w messages features) = .ok raw ∧
      router.Reads raw result ∧
      (router.needsRussianTranslation (answerOf w messages result) = true →
        ∃ translatedRaw translated,
          client.completeText (.translation (answerOf w messages result)) = .ok translatedRaw ∧
          router.Reads translatedRaw translated)

theorem inRange_of_parse {raw : String} {r : StructuredAnalysisResult}
    (h : router.parseAnalysisPayload raw w messages features = .ok r) : r.InRange := by
  unfold parseAnalysisPayload at h
  split at h
  · exact inRange_of_heuristicAnalysis h
  · rename_i block _
    cases hv : router.modelValidate block with
    | error e => rw [hv] at h; cases h
    | ok v => rw [hv] at h; exact inRange_of_sanitizeResult h

/-- Without a dominant sender a reply is parsed exactly when it reads. -/
theorem parse_eq_ok_iff (hpos : CountsSenders features) (hd : ¬ HasDominantSender features)
    {raw : String} {r : StructuredAnalysisResult} :
    router.parseAnalysisPayload raw w messages features = .ok r ↔
      ∃ result, router.Reads raw result ∧ answerOf w messages result = r := by
  unfold parseAnalysisPayload Reads
  cases hb : jsonBlock raw with
  | none =>
    have hno : ∀ r, heuristicAnalysis w messages features ≠ .ok r := fun r hr =>
      mt (heuristicAnalysis_isOk_iff hpos w).mp hd ⟨r, hr⟩
    simp [hno]
  | some block =>
    simp only [bind_eq_ok_iff, sanitizeResult_eq_ok_iff hpos hd, answerOf, Option.some.injEq,
      exists_eq_left', and_assoc]

/-! ## One provider -/

/-- **What an answer is.**  The parse of the reply when it needs no translation;
otherwise the parse of the translation, unless that still needs one. -/
theorem ask_eq_ok_iff {client : Provider} {r : StructuredAnalysisResult} :
    router.ask client w messages features = .ok r ↔
      ∃ raw, client.completeText (.analysis w messages features) = .ok raw ∧
        ∃ result, router.parseAnalysisPayload raw w messages features = .ok result ∧
          (router.needsRussianTranslation result = false ∧ result = r ∨
            router.needsRussianTranslation result = true ∧
              ∃ translatedRaw, client.completeText (.translation result) = .ok translatedRaw ∧
                ∃ translated,
                  router.parseAnalysisPayload translatedRaw w messages features =
                    .ok translated ∧
                  (router.needsRussianTranslation translated = true ∧ result = r ∨
                    router.needsRussianTranslation translated = false ∧ translated = r)) := by
  unfold ask
  simp only [bind_eq_ok_iff]
  refine exists_congr fun raw => and_congr_right fun _ => exists_congr fun result =>
    and_congr_right fun _ => ?_
  cases router.needsRussianTranslation result with
  | false => simp [pure, Except.pure]
  | true =>
    simp only [if_true, bind_eq_ok_iff, Bool.true_eq_false, false_and, true_and, false_or]
    refine exists_congr fun translatedRaw => and_congr_right fun _ => exists_congr fun t =>
      and_congr_right fun _ => ?_
    cases router.needsRussianTranslation t <;> simp [pure, Except.pure]

theorem inRange_of_ask {client : Provider} {r : StructuredAnalysisResult}
    (h : router.ask client w messages features = .ok r) : r.InRange := by
  obtain ⟨raw, -, result, hres, hcase⟩ := router.ask_eq_ok_iff.mp h
  rcases hcase with ⟨-, rfl⟩ | ⟨-, _, -, translated, hpt, ⟨-, rfl⟩ | ⟨-, rfl⟩⟩
  · exact router.inRange_of_parse hres
  · exact router.inRange_of_parse hres
  · exact router.inRange_of_parse hpt

/-- Without a dominant sender a provider answers exactly when its reply stands. -/
theorem replyStands_iff (hpos : CountsSenders features) (hd : ¬ HasDominantSender features)
    (client : Provider) :
    router.ReplyStands w messages features client ↔
      client.isAvailable = true ∧ ∃ r, router.ask client w messages features = .ok r := by
  refine and_congr_right fun _ => ⟨?_, ?_⟩
  · rintro ⟨raw, result, hraw, hreads, htr⟩
    have hres : router.parseAnalysisPayload raw w messages features =
        .ok (answerOf w messages result) :=
      (router.parse_eq_ok_iff hpos hd).mpr ⟨result, hreads, rfl⟩
    cases hneed : router.needsRussianTranslation (answerOf w messages result) with
    | false => exact ⟨_, router.ask_eq_ok_iff.mpr ⟨raw, hraw, _, hres, .inl ⟨hneed, rfl⟩⟩⟩
    | true =>
      obtain ⟨translatedRaw, translated, htraw, htreads⟩ := htr hneed
      have hpt : router.parseAnalysisPayload translatedRaw w messages features =
          .ok (answerOf w messages translated) :=
        (router.parse_eq_ok_iff hpos hd).mpr ⟨translated, htreads, rfl⟩
      cases hstill : router.needsRussianTranslation (answerOf w messages translated) with
      | true =>
        exact ⟨_, router.ask_eq_ok_iff.mpr ⟨raw, hraw, _, hres,
          .inr ⟨hneed, translatedRaw, htraw, _, hpt, .inl ⟨hstill, rfl⟩⟩⟩⟩
      | false =>
        exact ⟨_, router.ask_eq_ok_iff.mpr ⟨raw, hraw, _, hres,
          .inr ⟨hneed, translatedRaw, htraw, _, hpt, .inr ⟨hstill, rfl⟩⟩⟩⟩
  · rintro ⟨r, hr⟩
    obtain ⟨raw, hraw, res, hres, hcase⟩ := router.ask_eq_ok_iff.mp hr
    obtain ⟨result, hreads, rfl⟩ := (router.parse_eq_ok_iff hpos hd).mp hres
    refine ⟨raw, result, hraw, hreads, fun hneed => ?_⟩
    rcases hcase with ⟨hno, -⟩ | ⟨-, translatedRaw, htraw, _, hpt, -⟩
    · rw [hno] at hneed
      cases hneed
    · obtain ⟨translated, htreads, -⟩ := (router.parse_eq_ok_iff hpos hd).mp hpt
      exact ⟨translatedRaw, translated, htraw, htreads⟩

/-! ## All of them in turn -/

theorem inRange_of_askInTurn : ∀ {clients : List Provider} {r : StructuredAnalysisResult},
    router.askInTurn w messages features clients = .ok r → r.InRange
  | [], _, h => inRange_of_heuristicAnalysis h
  | client :: rest, r, h => by
    unfold askInTurn at h
    split_ifs at h
    · exact inRange_of_askInTurn h
    · cases ha : router.ask client w messages features with
      | ok result =>
        rw [ha] at h
        cases h
        exact router.inRange_of_ask ha
      | error e =>
        rw [ha] at h
        exact inRange_of_askInTurn h

/-- The loop returns when an available provider answers or the heuristics do. -/
theorem askInTurn_isOk_iff : ∀ clients : List Provider,
    (∃ r, router.askInTurn w messages features clients = .ok r) ↔
      (∃ r, heuristicAnalysis w messages features = .ok r) ∨
        ∃ client ∈ clients,
          client.isAvailable = true ∧ ∃ r, router.ask client w messages features = .ok r
  | [] => by simp [askInTurn]
  | client :: rest => by
    have ih := askInTurn_isOk_iff rest
    unfold askInTurn
    rw [List.exists_mem_cons_iff, or_left_comm, ← ih]
    by_cases hav : client.isAvailable = true
    · rw [if_neg (by simp [hav])]
      cases ha : router.ask client w messages features with
      | ok result => simp [hav]
      | error e => simp
    · rw [if_pos (by simpa using hav)]
      simp [hav]

theorem inRange_of_analyze {r : StructuredAnalysisResult}
    (h : router.analyze w messages features = .ok r) : r.InRange := router.inRange_of_askInTurn h

end AnalysisRouter

/-! ## The call as a whole -/

/-- **When `analyze` returns.**  On the features of a window it returns a result,
which is then in range, exactly when some sender dominates the window or the reply
of one of the two providers stands on its own. -/
theorem AnalysisRouter.analyze_returns_iff (router : AnalysisRouter) (w : Ident)
    (messages : List WindowMessagePayload) (chatType : ChatType) :
    (∃ r, router.analyze w messages (computeMessageFeatures messages chatType) = .ok r ∧
        r.InRange) ↔
      HasDominantSender (computeMessageFeatures messages chatType) ∨
        ∃ client ∈ [router.wormsoft, router.polza],
          router.ReplyStands w messages (computeMessageFeatures messages chatType) client := by
  have hpos : CountsSenders (computeMessageFeatures messages chatType) :=
    senderCount_pos messages chatType
  have hrange : (∃ r, router.analyze w messages (computeMessageFeatures messages chatType) =
      .ok r ∧ r.InRange) ↔
      ∃ r, router.analyze w messages (computeMessageFeatures messages chatType) = .ok r :=
    exists_congr fun r => and_iff_left_of_imp router.inRange_of_analyze
  rw [hrange]
  unfold AnalysisRouter.analyze
  rw [router.askInTurn_isOk_iff, heuristicAnalysis_isOk_iff hpos]
  by_cases hd : HasDominantSender (computeMessageFeatures messages chatType)
  · simp only [hd, true_or]
  · simp only [router.replyStands_iff hpos hd]

end Fallback

/-! ## Three voices -/

/-- A configuration in which neither provider is available. -/
def silentRouter : AnalysisRouter where
  wormsoft := ⟨false, fun _ => .error .callFailed⟩
  polza := ⟨false, fun _ => .error .callFailed⟩
  modelValidate := fun _ => .error .validation
  analysisOutputLanguage := "ru"

/-- Three messages of a group chat, each from another sender. -/
def threeVoices : List WindowMessagePayload :=
  [{ tgMessageId := 1, tgSenderId := some 1, text := "a", occurredAt := 0 },
   { tgMessageId := 2, tgSenderId := some 2, text := "b", occurredAt := seconds 1 },
   { tgMessageId := 3, tgSenderId := some 3, text := "c", occurredAt := seconds 2 }]

theorem authorActivity_threeVoices [CharData] :
    (computeMessageFeatures threeVoices .group).authorActivity = [("1", 1), ("2", 1), ("3", 1)] := rfl

/-- With the providers down, a window of three senders with one message each has no
analysis: the score of `initiative_balance` is `7/6`, and its constructor raises. -/
theorem analyze_threeVoices :
    threeVoices ≠ [] ∧
      @AnalysisRouter.analyze basicCharData silentRouter 1 threeVoices
        (@computeMessageFeatures basicCharData threeVoices .group) = .error .validation := by
  let _ := basicCharData
  refine ⟨by decide, ?_⟩
  have hd : ¬ HasDominantSender (computeMessageFeatures threeVoices .group) := by
    simp [HasDominantSender, senderCount, dominantCount, authorActivity_threeVoices]
  change heuristicAnalysis 1 threeVoices (computeMessageFeatures threeVoices .group) = _
  unfold heuristicAnalysis
  rw [heuristicSignals_of_not_dominant (senderCount_pos threeVoices .group) hd]
  rfl

end Orchestrator
end PersonalIntelligence
