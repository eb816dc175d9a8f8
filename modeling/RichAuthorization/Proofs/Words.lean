import Mathlib.Data.List.TakeWhile
import RichAuthorization.Token

/-!
The words of a text, and the scopes of a token report.
-/

namespace RichAuthorization

namespace Text

def RunAt (cs : List Char) (start : Nat) (run : List Char) : Prop :=
  ∃ before after, cs = before ++ run ++ after ∧ before.length = start ∧ run ≠ [] ∧
    (∀ c ∈ run, isWhiteSpace c = false) ∧
    (∀ c ∈ before.getLast?, isWhiteSpace c = true) ∧
    ∀ c ∈ after.head?, isWhiteSpace c = true

def cut (cs : List Char) : List (List Char) :=
  if (runs cs).1.isEmpty then (runs cs).2 else (runs cs).1 :: (runs cs).2

theorem words_eq (s : String) : words s = (cut s.toList).map String.ofList := rfl

theorem runs_cons_space {c : Char} (h : isWhiteSpace c = true) (cs : List Char) :
    runs (c :: cs) = ([], cut cs) := by
  simp [runs, h, cut]

theorem runs_cons_word {c : Char} (h : isWhiteSpace c = false) (cs : List Char) :
    runs (c :: cs) = (c :: (runs cs).1, (runs cs).2) := by
  simp [runs, h]

theorem runs_word_append {word : List Char} (h : ∀ c ∈ word, isWhiteSpace c = false)
    (cs : List Char) : runs (word ++ cs) = (word ++ (runs cs).1, (runs cs).2) := by
  induction word with
  | nil => rfl
  | cons c rest ih =>
      obtain ⟨hc, hrest⟩ := List.forall_mem_cons.mp h
      rw [List.cons_append, runs_cons_word hc, ih hrest]
      rfl

theorem cut_cons_space {c : Char} (h : isWhiteSpace c = true) (cs : List Char) :
    cut (c :: cs) = cut cs := by
  rw [cut, runs_cons_space h]
  rfl

theorem cut_word {word : List Char} (hne : word ≠ []) (h : ∀ c ∈ word, isWhiteSpace c = false) :
    cut word = [word] := by
  have hruns : runs word = (word, []) := by
    have hword := runs_word_append h []
    rwa [List.append_nil, show runs [] = ([], []) from rfl, List.append_nil] at hword
  simp [cut, hruns, hne]

theorem cut_word_space {word : List Char} (hne : word ≠ [])
    (h : ∀ c ∈ word, isWhiteSpace c = false) {c : Char} (hc : isWhiteSpace c = true)
    (cs : List Char) : cut (word ++ c :: cs) = word :: cut cs := by
  have hruns : runs (word ++ c :: cs) = (word, cut cs) := by
    rw [runs_word_append h, runs_cons_space hc, List.append_nil]
  simp [cut, hruns, hne]

theorem runs_fst (cs : List Char) :
    (runs cs).1 = cs.takeWhile fun c => !isWhiteSpace c := by
  induction cs with
  | nil => rfl
  | cons c cs ih =>
      cases h : isWhiteSpace c with
      | true => simp [runs_cons_space h, h]
      | false => simp [runs_cons_word h, h, ih]

theorem runAt_zero_iff {cs run : List Char} :
    RunAt cs 0 run ↔ run = (runs cs).1 ∧ run ≠ [] := by
  rw [runs_fst]
  constructor
  · rintro ⟨before, after, rfl, hlen, hne, hword, -, hafter⟩
    obtain rfl := List.eq_nil_of_length_eq_zero hlen
    refine ⟨?_, hne⟩
    have hstop : after.takeWhile (fun c => !isWhiteSpace c) = [] := by
      cases after with
      | nil => rfl
      | cons c rest => simp [hafter c rfl]
    rw [List.nil_append, List.takeWhile_append_of_pos (by simpa using hword), hstop,
      List.append_nil]
  · rintro ⟨rfl, hne⟩
    refine ⟨[], cs.dropWhile fun c => !isWhiteSpace c, ?_, rfl, hne, ?_, by simp, ?_⟩
    · rw [List.nil_append, List.takeWhile_append_dropWhile]
    · intro c hc
      simpa using List.mem_takeWhile_imp hc
    · intro c hc
      have hhead := List.head?_dropWhile_not (fun c => !isWhiteSpace c) cs
      rw [hc] at hhead
      simpa using hhead

-- Behind its first character a text has the same runs one place earlier, except the one that the
-- character belongs to.
theorem runAt_succ_iff {c : Char} {cs : List Char} {start : Nat} {run : List Char} :
    RunAt (c :: cs) (start + 1) run ↔ RunAt cs start run ∧ (start = 0 → isWhiteSpace c = true) := by
  constructor
  · rintro ⟨before, after, heq, hlen, hne, hword, hbefore, hafter⟩
    cases before with
    | nil => cases hlen
    | cons b before =>
        obtain ⟨rfl, rfl⟩ := List.cons.inj heq
        have hlen : before.length = start := Nat.succ.inj hlen
        refine ⟨⟨before, after, rfl, hlen, hne, hword, ?_, hafter⟩, ?_⟩
        · intro e he
          refine hbefore e ?_
          rw [List.getLast?_cons, he]
          rfl
        · rintro rfl
          obtain rfl := List.eq_nil_of_length_eq_zero hlen
          exact hbefore c rfl
  · rintro ⟨⟨before, after, rfl, rfl, hne, hword, hbefore, hafter⟩, hspace⟩
    refine ⟨c :: before, after, rfl, rfl, hne, hword, ?_, hafter⟩
    intro e he
    rw [List.getLast?_cons, Option.mem_some_iff] at he
    cases hlast : before.getLast? with
    | none =>
        rw [hlast, Option.getD_none] at he
        rw [List.getLast?_eq_none_iff.mp hlast] at hspace
        exact he ▸ hspace rfl
    | some l =>
        rw [hlast, Option.getD_some] at he
        exact hbefore e (he ▸ hlast)

def InPlaces (found : List (List Char)) (stands : Nat → List Char → Prop) : Prop :=
  ∃ places : List (Nat × List Char), places.map Prod.snd = found ∧
    places.Pairwise (fun a b => a.1 < b.1) ∧
    ∀ start run, (start, run) ∈ places ↔ stands start run

theorem InPlaces.shift {found : List (List Char)} {stands shifted : Nat → List Char → Prop}
    (h : InPlaces found stands)
    (hshift : ∀ start run, shifted start run ↔ ∃ before, before + 1 = start ∧ stands before run) :
    InPlaces found shifted := by
  obtain ⟨places, rfl, hordered, hmem⟩ := h
  refine ⟨places.map fun place => (place.1 + 1, place.2), by simp, ?_, ?_⟩
  · refine List.pairwise_map.mpr (hordered.imp ?_)
    intro a b hlt
    exact Nat.succ_lt_succ hlt
  · intro start run
    rw [hshift]
    constructor
    · intro hplace
      obtain ⟨⟨before, found⟩, hfound, heq⟩ := List.mem_map.mp hplace
      cases heq
      exact ⟨before, rfl, (hmem before found).mp hfound⟩
    · rintro ⟨before, rfl, hstands⟩
      exact List.mem_map.mpr ⟨(before, run), (hmem before run).mpr hstands, rfl⟩

-- The first run of all is the one that may stand at the beginning.
theorem InPlaces.cut {cs : List Char}
    (h : InPlaces (runs cs).2 fun start run => 0 < start ∧ RunAt cs start run) :
    InPlaces (cut cs) (RunAt cs) := by
  obtain ⟨places, heq, hordered, hmem⟩ := h
  by_cases hfirst : (runs cs).1 = []
  · refine ⟨places, by simp [Text.cut, hfirst, heq], hordered, ?_⟩
    intro start run
    rw [hmem, and_iff_right_iff_imp]
    intro hrun
    refine Nat.pos_of_ne_zero ?_
    rintro rfl
    obtain ⟨rfl, hne⟩ := runAt_zero_iff.mp hrun
    exact hne hfirst
  · refine ⟨(0, (runs cs).1) :: places, by simp [Text.cut, hfirst, heq], ?_, ?_⟩
    · refine List.pairwise_cons.mpr ⟨?_, hordered⟩
      rintro ⟨start, run⟩ hplace
      exact ((hmem start run).mp hplace).1
    · intro start run
      rw [List.mem_cons, hmem, Prod.mk.injEq]
      cases start with
      | zero =>
          rw [runAt_zero_iff]
          constructor
          · rintro (⟨-, rfl⟩ | ⟨hpos, -⟩)
            · exact ⟨rfl, hfirst⟩
            · exact absurd hpos (Nat.lt_irrefl 0)
          · rintro ⟨rfl, -⟩
            exact .inl ⟨rfl, rfl⟩
      | succ start => simp

theorem later_inPlaces (cs : List Char) :
    InPlaces (runs cs).2 fun start run => 0 < start ∧ RunAt cs start run := by
  induction cs with
  | nil =>
      refine ⟨[], rfl, .nil, ?_⟩
      rintro start run
      refine ⟨by simp, ?_⟩
      rintro ⟨-, before, after, heq, -, hne, -⟩
      simp_all
  | cons c cs ih =>
      cases hc : isWhiteSpace c with
      | true =>
          rw [runs_cons_space hc]
          refine ih.cut.shift fun start run => ?_
          cases start <;> simp [runAt_succ_iff, hc]
      | false =>
          rw [runs_cons_word hc]
          refine ih.shift fun start run => ?_
          cases start <;> simp [runAt_succ_iff, hc, and_comm, Nat.pos_iff_ne_zero]

theorem cut_inPlaces (cs : List Char) : InPlaces (cut cs) (RunAt cs) :=
  (later_inPlaces cs).cut

theorem word_of_mem_cut {cs run : List Char} (h : run ∈ cut cs) :
    run ≠ [] ∧ ∀ c ∈ run, isWhiteSpace c = false := by
  obtain ⟨places, heq, -, hmem⟩ := cut_inPlaces cs
  rw [← heq] at h
  obtain ⟨⟨start, run⟩, hplace, rfl⟩ := List.mem_map.mp h
  obtain ⟨-, -, -, -, hne, hword, -⟩ := (hmem start run).mp hplace
  exact ⟨hne, hword⟩

theorem flatten_cut (cs : List Char) :
    (cut cs).flatten = cs.filter fun c => !isWhiteSpace c := by
  have hcut : ∀ cs, (cut cs).flatten = (runs cs).1 ++ (runs cs).2.flatten := by
    intro cs
    by_cases h : (runs cs).1 = [] <;> simp [cut, h]
  induction cs with
  | nil => rfl
  | cons c cs ih =>
      cases hc : isWhiteSpace c with
      | true => simp [cut_cons_space hc, hc, ih]
      | false =>
          rw [hcut] at ih ⊢
          simp [runs_cons_word hc, hc, ih]

theorem cut_eq_nil_iff {cs : List Char} : cut cs = [] ↔ ∀ c ∈ cs, isWhiteSpace c = true := by
  have hnil : cut cs = [] ↔ (cut cs).flatten = [] := by
    rw [List.flatten_eq_nil_iff]
    constructor
    · intro h
      simp [h]
    · intro h
      refine List.eq_nil_iff_forall_not_mem.mpr fun run hrun => ?_
      exact (word_of_mem_cut hrun).1 (h run hrun)
  rw [hnil, flatten_cut]
  simp

theorem cut_intercalate {found : List (List Char)}
    (h : ∀ run ∈ found, run ≠ [] ∧ ∀ c ∈ run, isWhiteSpace c = false) :
    cut ([' '].intercalate found) = found := by
  induction found with
  | nil => rfl
  | cons run rest ih =>
      obtain ⟨⟨hne, hword⟩, hrest⟩ := List.forall_mem_cons.mp h
      cases rest with
      | nil => simpa using cut_word hne hword
      | cons next rest =>
          rw [List.intercalate_cons_cons, List.append_assoc, List.singleton_append,
            cut_word_space hne hword isWhiteSpace_space, ih hrest]

theorem toList_words (s : String) : (words s).map String.toList = cut s.toList := by
  simp [words_eq, Function.comp_def]

theorem words_eq_nil_iff {s : String} : words s = [] ↔ isBlank s = true := by
  rw [words_eq, List.map_eq_nil_iff, cut_eq_nil_iff]
  simp [isBlank]

theorem words_intercalate (s : String) : words (" ".intercalate (words s)) = words s := by
  have hjoined : (" ".intercalate (words s)).toList = [' '].intercalate (cut s.toList) := by
    rw [String.toList_intercalate, toList_words]
    rfl
  rw [words_eq, hjoined, cut_intercalate fun _ => word_of_mem_cut, ← words_eq]

end Text

namespace IntrospectionResponse

theorem report_scope_of_some {r : IntrospectionResponse} {text : String}
    (h : r.scope = some text) : r.report.scope = Text.words text := by
  simp [report, h]

theorem report_scope_of_none {r : IntrospectionResponse} (h : r.scope = none) :
    r.report.scope = [] := by
  simp [report, h]

theorem scopes_are_words (r : IntrospectionResponse) :
    (∀ scope ∈ r.report.scope, scope ≠ "" ∧ ∀ c ∈ scope.toList, Text.isWhiteSpace c = false) ∧
    (∀ text, r.scope = some text →
      Text.InPlaces (r.report.scope.map String.toList) (Text.RunAt text.toList) ∧
      r.report.scope.flatMap String.toList =
        text.toList.filter fun c => !Text.isWhiteSpace c) ∧
    (r.report.scope = [] ↔ ∀ text, r.scope = some text → Text.isBlank text = true) ∧
    { r with scope := some (" ".intercalate r.report.scope) }.report.scope = r.report.scope := by
  cases h : r.scope with
  | none =>
      rw [report_scope_of_none h]
      exact ⟨by simp, by simp, by simp, rfl⟩
  | some text =>
      rw [report_scope_of_some h]
      refine ⟨?_, ?_, ?_, Text.words_intercalate text⟩
      · intro scope hscope
        have hrun : scope.toList ∈ Text.cut text.toList := by
          rw [← Text.toList_words]
          exact List.mem_map_of_mem hscope
        obtain ⟨hne, hword⟩ := Text.word_of_mem_cut hrun
        exact ⟨fun hempty => hne (by simp [hempty]), hword⟩
      · rintro _ ⟨⟩
        rw [List.flatMap_def, Text.toList_words]
        exact ⟨Text.cut_inPlaces _, Text.flatten_cut _⟩
      · rw [Text.words_eq_nil_iff]
        simp

end IntrospectionResponse

namespace Payments

def spacedScopes : String := "\u2003openid \u00a0\n payments:read\u3000"

def spacedResponse : IntrospectionResponse :=
  { IntrospectionResponse.blank with scope := some spacedScopes }

theorem spaced_scopes_are_words :
    spacedResponse.report.scope = ["openid", "payments:read"] ∧
      Text.InPlaces ["openid".toList, "payments:read".toList] (Text.RunAt spacedScopes.toList) ∧
      (spacedScopes.toList.filter fun c => !Text.isWhiteSpace c) = "openidpayments:read".toList ∧
      Text.isBlank spacedScopes = false ∧
      ∀ c ∈ "payments:read".toList, Text.isWhiteSpace c = false := by
  have hscope : spacedResponse.report.scope = ["openid", "payments:read"] := by decide +kernel
  obtain ⟨hwords, hruns, hblank, -⟩ := IntrospectionResponse.scopes_are_words spacedResponse
  obtain ⟨hplaces, hkept⟩ := hruns spacedScopes rfl
  rw [hscope] at hwords hplaces hkept hblank
  refine ⟨hscope, hplaces, hkept.symm, ?_, (hwords "payments:read" (by simp)).2⟩
  rw [← Bool.not_eq_true]
  intro h
  cases hblank.mpr fun text htext => Option.some.inj htext ▸ h

end Payments

end RichAuthorization
