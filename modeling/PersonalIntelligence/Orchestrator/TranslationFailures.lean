import PersonalIntelligence.Llm.Fences
import PersonalIntelligence.Orchestrator.AnalysisRange

/-!
# What a failed translation does to an analysis

A result whose texts look latin is sent back to its provider to be translated, inside the
`try` that guards the first request, and the answer is read by the function that reads the
first reply.  That function takes a reply without JSON for a request to analyse the window
heuristically.  So a translation that raises, or whose JSON does not validate, discards the
provider's result and passes the window on, and a translation without JSON replaces the
result by the heuristic one, unless that looks latin too.
-/

namespace PersonalIntelligence
namespace Orchestrator

open PyText Regex

namespace AnalysisRouter

section Translation

variable [CharData] (router : AnalysisRouter) (w : Ident) (messages : List WindowMessagePayload)
  (features : MessageFeatureSet)

/-- The reply has JSON that validates, and it is sanitised to `r`. -/
def ReadsAs (raw : String) (r : StructuredAnalysisResult) : Prop :=
  ∃ block result, jsonBlock raw = some block ∧ router.modelValidate block = .ok result ∧
    sanitizeResult { result.val with sourceWindowId := w } messages features = .ok r

/-- The provider is not there, it raises, or its JSON does not validate. -/
def Failed (client : Provider) : Prop :=
  client.isAvailable = true → ∀ raw,
    client.completeText (.analysis w messages features) = .ok raw →
      ∃ block e, jsonBlock raw = some block ∧ router.modelValidate block = .error e

/-- The analysis is what came of the turn of the provider, and that is its result or the
one that its translation holds. -/
def Undegraded (client : Provider) (first : StructuredAnalysisResult) : Prop :=
  ∃ r, router.ask client w messages features = .ok r ∧
    router.analyze w messages features = .ok r ∧
    (r = first ∨ ∃ translatedRaw, client.completeText (.translation first) = .ok translatedRaw ∧
      router.ReadsAs w messages features translatedRaw r)

/-- If there is anything to translate, the translation has JSON that validates, or it has
no JSON and the heuristic result would have to be translated as well. -/
def TranslationHarmless (client : Provider) (first : StructuredAnalysisResult) : Prop :=
  router.needsRussianTranslation first = true →
    ∃ translatedRaw, client.completeText (.translation first) = .ok translatedRaw ∧
      ((∃ block result, jsonBlock translatedRaw = some block ∧
          router.modelValidate block = .ok result) ∨
        (jsonBlock translatedRaw = none ∧ ∀ h, heuristicAnalysis w messages features = .ok h →
          router.needsRussianTranslation h = true))

variable {router w messages features}

/-- What a reply is parsed to. -/
theorem parseAnalysisPayload_eq_ok_iff {raw : String} {r : StructuredAnalysisResult} :
    router.parseAnalysisPayload raw w messages features = .ok r ↔
      router.ReadsAs w messages features raw r ∨
        (jsonBlock raw = none ∧ heuristicAnalysis w messages features = .ok r) := by
  unfold parseAnalysisPayload ReadsAs
  cases jsonBlock raw with
  | none => simp
  | some block => simp [bind_eq_ok_iff]

/-- The sanitiser does not raise where the heuristics do not. -/
theorem exists_sanitizeResult {h : StructuredAnalysisResult}
    (hheuristic : heuristicAnalysis w messages features = .ok h)
    (result : StructuredAnalysisResult) :
    ∃ r, sanitizeResult result messages features = .ok r := by
  obtain ⟨signals, hsignals, -⟩ := bind_eq_ok_iff.mp hheuristic
  unfold sanitizeResult
  split_ifs
  · exact ⟨_, bind_eq_ok_iff.mpr ⟨signals, hsignals, rfl⟩⟩
  · exact ⟨_, rfl⟩

/-- A provider that has failed leaves the window to the next. -/
theorem askInTurn_of_failed {client : Provider} (hfailed : router.Failed w messages features client)
    (rest : List Provider) :
    router.askInTurn w messages features (client :: rest) =
      router.askInTurn w messages features rest := by
  rw [askInTurn]
  cases havailable : client.isAvailable with
  | false => rfl
  | true =>
    have hraises : ∀ r, router.ask client w messages features ≠ .ok r := by
      intro r hr
      obtain ⟨raw, hraw, result, hresult, -⟩ := router.ask_eq_ok_iff.mp hr
      obtain ⟨block, e, hblock, hinvalid⟩ := hfailed havailable raw hraw
      rcases parseAnalysisPayload_eq_ok_iff.mp hresult with ⟨block', v, hblock', hvalid, -⟩ | ⟨hnone, -⟩
      · rw [hblock, Option.some.injEq] at hblock'
        rw [hblock', hvalid] at hinvalid
        cases hinvalid
      · rw [hblock] at hnone
        cases hnone
    cases hask : router.ask client w messages features with
    | error e => rfl
    | ok r => exact absurd hask (hraises r)

theorem askInTurn_append {before : List Provider}
    (hfailed : ∀ b ∈ before, router.Failed w messages features b) (rest : List Provider) :
    router.askInTurn w messages features (before ++ rest) =
      router.askInTurn w messages features rest := by
  induction before with
  | nil => rfl
  | cons b before ih =>
    rw [List.cons_append, askInTurn_of_failed (hfailed b (List.mem_cons_self ..)),
      ih fun b' hb' => hfailed b' (List.mem_cons_of_mem _ hb')]

theorem askInTurn_of_ok {client : Provider} {rest : List Provider} {r : StructuredAnalysisResult}
    (havailable : client.isAvailable = true)
    (hask : router.ask client w messages features = .ok r) :
    router.askInTurn w messages features (client :: rest) = .ok r := by
  rw [askInTurn, havailable, hask]
  rfl

/-- What the provider's first reply is parsed to is known. -/
theorem ask_of_first {client : Provider} {raw : String} {first r : StructuredAnalysisResult}
    (hraw : client.completeText (.analysis w messages features) = .ok raw)
    (hfirst : router.ReadsAs w messages features raw first) :
    router.ask client w messages features = .ok r ↔
      router.needsRussianTranslation first = false ∧ first = r ∨
        router.needsRussianTranslation first = true ∧
          ∃ translatedRaw, client.completeText (.translation first) = .ok translatedRaw ∧
            ∃ translated, router.parseAnalysisPayload translatedRaw w messages features =
                .ok translated ∧
              (router.needsRussianTranslation translated = true ∧ first = r ∨
                router.needsRussianTranslation translated = false ∧ translated = r) := by
  have hparse : router.parseAnalysisPayload raw w messages features = .ok first :=
    parseAnalysisPayload_eq_ok_iff.mpr (.inl hfirst)
  rw [ask_eq_ok_iff]
  constructor
  · rintro ⟨raw', hraw', result, hresult, hcase⟩
    rw [hraw, Except.ok.injEq] at hraw'
    subst hraw'
    rw [hparse, Except.ok.injEq] at hresult
    subst hresult
    exact hcase
  · exact fun hcase => ⟨raw, hraw, first, hparse, hcase⟩

/-- A harmless translation leaves the first result or gives another one. -/
theorem ask_of_harmless {client : Provider} {raw : String} {first h : StructuredAnalysisResult}
    (hheuristic : heuristicAnalysis w messages features = .ok h)
    (hraw : client.completeText (.analysis w messages features) = .ok raw)
    (hfirst : router.ReadsAs w messages features raw first)
    (hharmless : router.TranslationHarmless w messages features client first) :
    ∃ r, router.ask client w messages features = .ok r ∧
      (r = first ∨ ∃ translatedRaw,
        client.completeText (.translation first) = .ok translatedRaw ∧
          router.ReadsAs w messages features translatedRaw r) := by
  simp only [ask_of_first hraw hfirst]
  cases hneeds : router.needsRussianTranslation first with
  | false => exact ⟨first, .inl ⟨rfl, rfl⟩, .inl rfl⟩
  | true =>
    obtain ⟨translatedRaw, htranslated, ⟨block, v, hblock, hvalid⟩ | ⟨hnone, hlatin⟩⟩ :=
      hharmless hneeds
    · obtain ⟨translated, hsanitized⟩ := exists_sanitizeResult hheuristic
        { v.val with sourceWindowId := w }
      have hreads : router.ReadsAs w messages features translatedRaw translated :=
        ⟨block, v, hblock, hvalid, hsanitized⟩
      have hparse := parseAnalysisPayload_eq_ok_iff.mpr (.inl hreads)
      cases hstill : router.needsRussianTranslation translated with
      | true =>
        exact ⟨first, .inr ⟨rfl, translatedRaw, htranslated, translated, hparse,
          .inl ⟨hstill, rfl⟩⟩, .inl rfl⟩
      | false =>
        exact ⟨translated, .inr ⟨rfl, translatedRaw, htranslated, translated, hparse,
          .inr ⟨hstill, rfl⟩⟩, .inr ⟨translatedRaw, htranslated, hreads⟩⟩
    · -- the heuristic result takes the place of a translation, and is not taken for one
      have hparse : router.parseAnalysisPayload translatedRaw w messages features = .ok h :=
        parseAnalysisPayload_eq_ok_iff.mpr (.inr ⟨hnone, hheuristic⟩)
      exact ⟨first, .inr ⟨rfl, translatedRaw, htranslated, h, hparse,
        .inl ⟨hlatin h hheuristic, rfl⟩⟩, .inl rfl⟩

/-- A turn that ends with the first result or a translation has had a harmless one. -/
theorem harmless_of_ask {client : Provider} {raw : String} {first r : StructuredAnalysisResult}
    (hraw : client.completeText (.analysis w messages features) = .ok raw)
    (hfirst : router.ReadsAs w messages features raw first)
    (hask : router.ask client w messages features = .ok r)
    (hr : r = first ∨ ∃ translatedRaw,
      client.completeText (.translation first) = .ok translatedRaw ∧
        router.ReadsAs w messages features translatedRaw r) :
    router.TranslationHarmless w messages features client first := by
  intro hneeds
  rcases (ask_of_first hraw hfirst).mp hask with
    ⟨hno, -⟩ | ⟨-, translatedRaw, htranslated, translated, hparse, hcase⟩
  · rw [hno] at hneeds
    cases hneeds
  refine ⟨translatedRaw, htranslated, ?_⟩
  rcases parseAnalysisPayload_eq_ok_iff.mp hparse with
    ⟨block, v, hblock, hvalid, -⟩ | ⟨hnone, hheuristic⟩
  · exact .inl ⟨block, v, hblock, hvalid⟩
  refine .inr ⟨hnone, fun h hh => ?_⟩
  rw [hheuristic, Except.ok.injEq] at hh
  subst hh
  rcases hcase with ⟨hstill, -⟩ | ⟨hstill, rfl⟩
  · exact hstill
  · -- the heuristic result would have to be the first one, which is latin, or to have been read
    rcases hr with rfl | ⟨translatedRaw', htranslated', block, v, hblock, -⟩
    · exact hneeds
    · rw [htranslated, Except.ok.injEq] at htranslated'
      rw [← htranslated', hnone] at hblock
      cases hblock

/-- **A failed translation.**  Let a provider be available, let its first reply have JSON
that validates, and let the providers before it have failed.  The analysis is its result, or
the one of its translation, exactly if the translation is harmless. -/
theorem analyze_undegraded_iff (router : AnalysisRouter) (w : Ident)
    (messages : List WindowMessagePayload) (features : MessageFeatureSet)
    {before after : List Provider} {client : Provider} {raw : String}
    {first h : StructuredAnalysisResult}
    (hheuristic : heuristicAnalysis w messages features = .ok h)
    (horder : [router.wormsoft, router.polza] = before ++ client :: after)
    (hfailed : ∀ b ∈ before, router.Failed w messages features b)
    (havailable : client.isAvailable = true)
    (hraw : client.completeText (.analysis w messages features) = .ok raw)
    (hfirst : router.ReadsAs w messages features raw first) :
    router.Undegraded w messages features client first ↔
      router.TranslationHarmless w messages features client first := by
  constructor
  · rintro ⟨r, hask, -, hr⟩
    exact harmless_of_ask hraw hfirst hask hr
  · intro hharmless
    obtain ⟨r, hask, hr⟩ := ask_of_harmless hheuristic hraw hfirst hharmless
    refine ⟨r, hask, ?_, hr⟩
    rw [analyze, horder, askInTurn_append hfailed]
    exact askInTurn_of_ok havailable hask

end Translation

end AnalysisRouter

/-! ## One result -/

/-- A reply with a summary and a signal. -/
def planReply : String :=
  "\x7b\"summary\": \"plan\", \"analytics_signals\": [\x7b\"kind\": \"activity\", " ++
    "\"score\": 1.0, \"summary\": \"busy\"\x7d]\x7d"

/-- What it validates to, with the window id that is put into it. -/
def planResult : StructuredAnalysisResult where
  sourceWindowId := 1
  summary := "plan"
  analyticsSignals := [{ kind := .activity, score := 1, summary := "busy" }]

theorem planResult_inRange : planResult.InRange where
  claims := by simp [planResult]
  tasks := by simp [planResult]
  signals := by
    intro s hs
    rw [List.mem_singleton.mp hs]
    exact ⟨by norm_num, by norm_num⟩
  confidence := ⟨by norm_num [planResult], by norm_num [planResult]⟩

/-- One provider, which gives that reply, and whose translations are `translated`. -/
def planRouter (translated : Except Exc String) : AnalysisRouter where
  wormsoft := ⟨true, fun
    | .analysis _ _ _ => .ok planReply
    | .translation _ => translated⟩
  polza := ⟨false, fun _ => .error .callFailed⟩
  modelValidate block :=
    if block = planReply then .ok ⟨planResult, planResult_inRange⟩ else .error .validation
  analysisOutputLanguage := "ru"

/-- A window of one message. -/
def planWindow : List WindowMessagePayload :=
  [{ tgMessageId := 1, tgSenderId := some 1, text := "план", occurredAt := 0 }]

/-- A reply that is an object is its own block. -/
theorem jsonBlock_object {raw : String} {middle : List Char}
    (h : raw.toList = '\x7b' :: (middle ++ ['\x7d'])) : jsonBlock raw = some raw := by
  have hfound := @Llm.search_jsonBlock [] [] middle ⟨by simp, by simp⟩ ⟨by simp, by simp⟩
  rw [List.nil_append, ← h, String.ofList_toList] at hfound
  rw [jsonBlock, show jsonRe = Llm.jsonBlockRe from rfl, hfound, Option.map_some]
  exact congrArg some String.ofList_toList

theorem jsonBlock_planReply : jsonBlock planReply = some planReply := by
  have hreply : planReply.toList =
      '\x7b' :: ((planReply.toList.drop 1).dropLast ++ ['\x7d']) := by
    unfold planReply
    rw [String.toList_append, String.toList_ofList, String.toList_ofList]
    rfl
  exact jsonBlock_object hreply

theorem jsonBlock_net : jsonBlock "нет" = none :=
  Option.map_eq_none_iff.mpr (Llm.search_jsonBlock_eq_none (by decide))

/-- The features of that window. -/
def planFeatures [CharData] : MessageFeatureSet := computeMessageFeatures planWindow .private

theorem hasDominantSender_plan : HasDominantSender (@planFeatures basicCharData) := by
  have hactivity : (@planFeatures basicCharData).authorActivity = [("1", 1)] := rfl
  simp [HasDominantSender, senderCount, dominantCount, hactivity]

theorem exists_heuristicAnalysis_plan :
    ∃ r, @heuristicAnalysis basicCharData 1 planWindow (@planFeatures basicCharData) = .ok r :=
  (@heuristicAnalysis_isOk_iff basicCharData planWindow _
    (@senderCount_pos basicCharData planWindow .private) 1).mpr hasDominantSender_plan

theorem readsAs_planReply [CharData] (translated : Except Exc String) :
    (planRouter translated).ReadsAs 1 planWindow planFeatures planReply
      (sanitized planResult planWindow) :=
  ⟨planReply, ⟨planResult, planResult_inRange⟩, jsonBlock_planReply, by simp [planRouter],
    sanitizeResult_of_signals (by decide)⟩

/-- The translation comes back as it was sent, and the first result stands. -/
theorem analyze_undegraded_iff_untranslated :
    @AnalysisRouter.Undegraded basicCharData (planRouter (.ok planReply)) 1 planWindow
      (@planFeatures basicCharData) (planRouter (.ok planReply)).wormsoft
      (sanitized planResult planWindow) := by
  let _ := basicCharData
  obtain ⟨h, hheuristic⟩ := exists_heuristicAnalysis_plan
  have horder : [(planRouter (.ok planReply)).wormsoft, (planRouter (.ok planReply)).polza] =
      [] ++ (planRouter (.ok planReply)).wormsoft :: [(planRouter (.ok planReply)).polza] := rfl
  refine (AnalysisRouter.analyze_undegraded_iff (planRouter (.ok planReply)) 1 planWindow
    planFeatures hheuristic horder (by simp) rfl rfl (readsAs_planReply _)).mpr fun _ => ?_
  exact ⟨planReply, rfl, .inl ⟨planReply, ⟨planResult, planResult_inRange⟩, jsonBlock_planReply,
    by simp [planRouter]⟩⟩

/-- The window has an analysis without a provider, the first reply is read, and its result is
not the analysis. -/
def Discards (translated : Except Exc String) : Prop :=
  (∃ h, @heuristicAnalysis basicCharData 1 planWindow (@planFeatures basicCharData) = .ok h) ∧
    (planRouter translated).wormsoft.completeText
      (.analysis 1 planWindow (@planFeatures basicCharData)) = .ok planReply ∧
    @AnalysisRouter.ReadsAs basicCharData (planRouter translated) 1 planWindow
      (@planFeatures basicCharData) planReply (sanitized planResult planWindow) ∧
    ¬ @AnalysisRouter.Undegraded basicCharData (planRouter translated) 1 planWindow
      (@planFeatures basicCharData) (planRouter translated).wormsoft
      (sanitized planResult planWindow)

/-- Two letters, as texts. -/
theorem ofList_singleton_le_iff {c d : Char} :
    String.ofList [c] ≤ String.ofList [d] ↔ c.toNat ≤ d.toNat := by
  have hlt : String.ofList [d] < String.ofList [c] ↔ d.toNat < c.toNat := by
    show (String.ofList [d]).toList < (String.ofList [c]).toList ↔ d.toNat < c.toNat
    rw [String.toList_ofList, String.toList_ofList, List.cons_lt_cons_iff]
    constructor
    · rintro (h | ⟨-, h⟩)
      · exact h
      · cases h
    · exact .inl
  exact (not_congr hlt).trans not_lt

/-- As many small Russian letters as Latin ones are enough. -/
theorem not_looksMostlyLatin_ofList {l : List Char}
    (h : l.countP (fun c => decide (65 ≤ c.toNat ∧ c.toNat ≤ 122)) ≤
      l.countP fun c => decide (1072 ≤ c.toNat ∧ c.toNat ≤ 1103)) :
    @looksMostlyLatin basicCharData (String.ofList l) = false := by
  have hlatin : l.countP (fun c => decide ("a" ≤ String.ofList [russianLower c] ∧
      String.ofList [russianLower c] ≤ "z")) ≤
        l.countP fun c => decide (65 ≤ c.toNat ∧ c.toNat ≤ 122) := by
    refine List.countP_mono_left fun c _ hc => decide_eq_true ?_
    obtain ⟨ha, hz⟩ := of_decide_eq_true hc
    have ha' : 97 ≤ (russianLower c).toNat := ofList_singleton_le_iff.mp ha
    have hz' : (russianLower c).toNat ≤ 122 := ofList_singleton_le_iff.mp hz
    rw [toNat_russianLower] at ha' hz'
    split_ifs at ha' hz' <;> omega
  have hcyrillic : (l.countP fun c => decide (1072 ≤ c.toNat ∧ c.toNat ≤ 1103)) ≤
      l.countP fun c => decide ("а" ≤ String.ofList [russianLower c] ∧
        String.ofList [russianLower c] ≤ "я") || c == 'Ё' || c == 'ё' := by
    refine List.countP_mono_left fun c _ hc => ?_
    have hc := of_decide_eq_true hc
    have hlower : (russianLower c).toNat = c.toNat := by
      rw [toNat_russianLower]
      split_ifs <;> omega
    have hletter : "а" ≤ String.ofList [russianLower c] ∧ String.ofList [russianLower c] ≤ "я" := by
      constructor
      · exact ofList_singleton_le_iff.mpr (hlower ▸ hc.1)
      · exact ofList_singleton_le_iff.mpr (hlower ▸ hc.2)
    rw [decide_eq_true hletter, Bool.true_or, Bool.true_or]
  unfold looksMostlyLatin
  rw [String.toList_ofList]
  refine decide_eq_false fun hmost => ?_
  exact absurd hmost.2 (not_lt.mpr (hlatin.trans (h.trans hcyrillic)))

set_option maxRecDepth 2000 in
/-- The heuristic analysis of the window is in Russian. -/
theorem not_looksMostlyLatin_plan {r : StructuredAnalysisResult}
    (hr : @heuristicAnalysis basicCharData 1 planWindow (@planFeatures basicCharData) = .ok r) :
    ∀ text ∈ humanReadableTexts r, @looksMostlyLatin basicCharData text = false := by
  let _ := basicCharData
  have hwindow : summarizeMessages planWindow = "tg:1: план" ∧
      planFeatures.keywordCandidates.take 5 = ["план"] ∧
      heuristicClaims planWindow planFeatures = [] ∧ heuristicTasks planWindow = [] := by
    decide +kernel
  obtain ⟨hsummary, htopics, hclaims, htasks⟩ := hwindow
  have hsignals : heuristicSignals planWindow planFeatures =
      .ok (signalDrafts planWindow planFeatures) :=
    heuristicSignals_of_dominant (senderCount_pos planWindow .private) hasDominantSender_plan
  rw [heuristicAnalysis, hsignals, hsummary, htopics, hclaims, htasks] at hr
  obtain rfl := Except.ok.inj hr
  intro text htext
  have htext := List.mem_of_mem_filter htext
  simp only [signalDrafts, List.map_cons, List.map_nil, List.flatMap_nil, List.append_nil,
    List.cons_append, List.nil_append, List.mem_cons, List.not_mem_nil, or_false] at htext
  rcases htext with rfl | rfl | rfl | rfl | rfl | rfl | rfl | rfl | rfl
  all_goals exact not_looksMostlyLatin_ofList (by decide)

theorem needsRussianTranslation_plan (translated : Except Exc String) :
    @AnalysisRouter.needsRussianTranslation basicCharData (planRouter translated)
      (sanitized planResult planWindow) = true := by
  show @AnalysisRouter.needsRussianTranslation basicCharData (planRouter (.error .callFailed)) _ =
    true
  decide

theorem discards_of_harmful {translated : Except Exc String}
    (h : ¬ @AnalysisRouter.TranslationHarmless basicCharData (planRouter translated) 1 planWindow
      (@planFeatures basicCharData) (planRouter translated).wormsoft
      (sanitized planResult planWindow)) :
    Discards translated := by
  let _ := basicCharData
  have hreads := readsAs_planReply translated
  refine ⟨exists_heuristicAnalysis_plan, rfl, hreads, ?_⟩
  rintro ⟨r, hask, -, hr⟩
  exact h (AnalysisRouter.harmless_of_ask rfl hreads hask hr)

/-- The translation raises, or it has no JSON: the first result is not the analysis. -/
theorem not_undegraded_translationFails :
    Discards (.error .callFailed) ∧ Discards (.ok "нет") := by
  let _ := basicCharData
  constructor
  · refine discards_of_harmful fun h => ?_
    obtain ⟨translatedRaw, hreply, -⟩ := h (needsRussianTranslation_plan _)
    cases hreply
  · refine discards_of_harmful fun h => ?_
    obtain ⟨translatedRaw, hreply, hharmless⟩ := h (needsRussianTranslation_plan _)
    have hanswer : (.ok "нет" : Except Exc String) = .ok translatedRaw := hreply
    obtain rfl := Except.ok.inj hanswer
    obtain ⟨h, hheuristic⟩ := exists_heuristicAnalysis_plan
    have hrussian : (planRouter (.ok "нет")).needsRussianTranslation h = false := by
      unfold AnalysisRouter.needsRussianTranslation
      split_ifs
      · rfl
      · exact List.any_eq_false.mpr fun text htext =>
          Bool.eq_false_iff.mp (not_looksMostlyLatin_plan hheuristic text htext)
    obtain ⟨block, v, hblock, -⟩ | ⟨-, hlatin⟩ := hharmless
    · rw [jsonBlock_net] at hblock
      cases hblock
    · have hfalse := hlatin h hheuristic
      rw [hrussian] at hfalse
      cases hfalse

end Orchestrator
end PersonalIntelligence
