import SqlSelect.Proofs.Reading.Meaning

/-!
# Rendering keeps the meaning of a WHERE clause

* `Fragment.Reads f ts`: the text of a fragment, with its values, is the tokens `ts`;
* `Fragment.ReadsPrimary f m`, `Fragment.ReadsCondition f m`: the fragment is read as a primary or a
  condition of the truth `m`. A condition in parentheses is a primary, and primaries joined by one
  connective are a condition (`Phrase.readsCondition_join`);
* `Document.read_renderFilter`: the text of a plain clause is read, and what is read has the meaning
  of the clause.

Parentheses are missing where a branch or a condition stands alone. There is then but one
connective at that level, and so no other that could take its operands.
-/

namespace SqlSelect

namespace Fragment

/-! ### Tokens of fragments -/

/-- The text of the fragment, with its values, is the tokens. -/
def Reads (f : Fragment) (ts : List (Token Value)) : Prop :=
  Token.bind (Token.scan f.sql) (Params.unnamed f.params) = some ts

variable {f g : Fragment} {ts us : List (Token Value)}

theorem Reads.append (hf : f.Reads ts) (hg : g.Reads us)
    (h : Token.endsApart f.sql = true ∨ Token.startsApart g.sql = true) :
    (f ++ g).Reads (ts ++ us) := by
  rw [Reads, sql_append, params_append, Token.scan_append h, Params.unnamed_append]
  exact Token.bind_append hf hg

/-- Text that does not join with what stands behind it. -/
theorem Reads.text {t : String} (ht : Reads [.text t] ts) (hg : g.Reads us)
    (h : Token.endsApart t = true ∨ Token.startsApart g.sql = true) :
    Reads (.text t :: g) (ts ++ us) := by
  have hsql : sql [.text t] = t := String.append_empty
  exact ht.append (f := [.text t]) hg (hsql.symm ▸ h)

theorem reads_nil : Reads [] [] := rfl

theorem reads_mark (v : Value) : Reads [.mark v] [.mark v] := by
  have hscan : Token.scan "?" = [.mark ()] := by decide
  simp [Reads, Piece.sql, Piece.params, hscan, Params.unnamed, Token.bind, Token.take]

theorem reads_separator (k : Connective) :
    Reads [.text (Junction.separator k)] [.keyword (.connective k)] := by
  cases k <;> rfl

/-- The key of a field and text that does not join with it are read one after the other. -/
theorem reads_key {key n t : String} (hkey : Token.scan key = [.word n])
    (hstart : Token.startsApart t = true) (ht : Reads [.text t] ts) :
    Reads [.text (key ++ t)] (.word n :: ts) := by
  have hk : Reads [.text key] [.word n] := by
    have hsql : sql [.text key] = key := String.append_empty
    rw [Reads, hsql, hkey]
    rfl
  have hsql : sql [.text t] = t := String.append_empty
  have h := hk.append ht (.inr (hsql.symm ▸ hstart))
  simpa [Reads, Piece.sql, Piece.params] using h

/-! ### Phrases -/

/-- The fragment is read as a primary of the given truth. -/
def ReadsPrimary (f : Fragment) (m : Truth → Bool) : Prop :=
  ∃ ts F, f.Reads ts ∧ IsPrimary ts F ∧ ∀ σ, F.eval σ = m σ

/-- The fragment is read as a condition of the given truth. -/
def ReadsCondition (f : Fragment) (m : Truth → Bool) : Prop :=
  ∃ ts F, f.Reads ts ∧ IsCondition ts F ∧ ∀ σ, F.eval σ = m σ

/-- The fragment is read as links of one connective to primaries of the given truths. -/
def ReadsLinks (k : Connective) (f : Fragment) (ms : List (Truth → Bool)) : Prop :=
  ∃ ts ls, f.Reads ts ∧ IsLinks ts ls ∧ (∀ l ∈ ls, l.1 = k) ∧
    (∀ σ, (ls.map fun l => l.2.eval σ) = ms.map fun m => m σ) ∧ Token.startsApart f.sql = true

variable {m : Truth → Bool} {ms : List (Truth → Bool)} {k : Connective}

/-- No tokens, no text. -/
theorem Reads.sql_ne_empty (h : f.Reads ts) (hts : 0 < ts.length) : f.sql ≠ "" := by
  intro he
  rw [Reads, he, Token.scan_empty] at h
  cases hvs : Params.unnamed f.params with
  | nil =>
    rw [hvs] at h
    obtain rfl : [] = ts := by simpa [Token.bind] using h
    exact absurd hts (by simp)
  | cons v vs =>
    rw [hvs] at h
    exact absurd h (by simp [Token.bind])

theorem ReadsPrimary.sql_ne_empty (h : f.ReadsPrimary m) : f.sql ≠ "" := by
  obtain ⟨ts, F, hreads, hprimary, -⟩ := h
  exact hreads.sql_ne_empty hprimary.pos

theorem ReadsCondition.sql_ne_empty (h : f.ReadsCondition m) : f.sql ≠ "" := by
  obtain ⟨ts, F, hreads, hcondition, -⟩ := h
  exact hreads.sql_ne_empty hcondition.pos

/-- A condition in parentheses is a primary. -/
theorem ReadsCondition.enclosed (h : f.ReadsCondition m) : f.enclosed.ReadsPrimary m := by
  obtain ⟨ts, F, hreads, hcondition, hm⟩ := h
  have hclosing : Reads [.text ")"] [.closing] := rfl
  have hopening : Reads [.text "("] [.opening] := rfl
  have hbody := hreads.append hclosing (.inr (by decide))
  exact ⟨_, F, hopening.text hbody (.inl (by decide)), hcondition.isPrimary, hm⟩

theorem ReadsLinks.nil (k : Connective) : ReadsLinks k [] [] :=
  ⟨[], [], reads_nil, .nil, by simp, fun _ => rfl, by decide⟩

/-- One more link in front of others. -/
theorem ReadsPrimary.link (hf : f.ReadsPrimary m) (hg : ReadsLinks k g ms) :
    ReadsLinks k (.text (Junction.separator k) :: (f ++ g)) (m :: ms) := by
  obtain ⟨ts, F, hts, hprimary, hm⟩ := hf
  obtain ⟨us, ls, hus, hlinks, hk, hms, hstart⟩ := hg
  have hsep : Token.endsApart (Junction.separator k) = true ∧
      Token.startsApart (Junction.separator k) = true ∧ Junction.separator k ≠ "" := by
    cases k <;> decide
  have hbody := hts.append hus (.inr hstart)
  refine ⟨_, (k, F) :: ls, (reads_separator k).text hbody (.inl hsep.1),
    hprimary.link k hlinks, List.forall_mem_cons.2 ⟨rfl, hk⟩, fun σ => ?_, ?_⟩
  · rw [List.map_cons, List.map_cons, hm σ, hms σ]
  · exact Token.startsApart_append hsep.2.1 hsep.2.2

/-- A primary with links behind it is a condition, joined from the left. -/
theorem ReadsPrimary.chain (hf : f.ReadsPrimary m) (hg : ReadsLinks k g ms) :
    (f ++ g).ReadsCondition fun σ => (ms.map fun m => m σ).foldl k.apply (m σ) := by
  obtain ⟨ts, F, hts, hprimary, hm⟩ := hf
  obtain ⟨us, ls, hus, hlinks, hk, hms, hstart⟩ := hg
  refine ⟨_, _, hts.append hus (.inr hstart), hprimary.chain hlinks, fun σ => ?_⟩
  have heval := Chain.eval_formula σ (c := ⟨F, ls⟩) hk
  rw [heval, hms σ, hm σ]

/-- Joining is putting a separator in front of each fragment but the first. -/
theorem join_cons (sep : String) (f : Fragment) (fs : List Fragment) :
    join sep (f :: fs) = f ++ fs.flatMap fun g => .text sep :: g := by
  induction fs generalizing f with
  | nil => simp [join]
  | cons g fs ih => simp [join, ih g]

end Fragment

open Fragment

/-- A fragment that is read as a primary, and its truth. -/
structure Phrase where
  fragment : Fragment
  truth : Truth → Bool
  primary : fragment.ReadsPrimary truth

namespace Phrase

/-- Fragments that are primaries make a list of phrases. -/
theorem exists_map {α : Type} (as : List α) {f : α → Fragment} {m : α → Truth → Bool}
    (h : ∀ a ∈ as, (f a).ReadsPrimary (m a)) :
    ∃ ps : List Phrase, as.map f = ps.map fragment ∧
      ∀ σ, (as.map fun a => m a σ) = ps.map fun p => p.truth σ := by
  induction as with
  | nil => exact ⟨[], rfl, fun _ => rfl⟩
  | cons a as ih =>
    obtain ⟨ps, hps, hm⟩ := ih fun b hb => h b (List.mem_cons_of_mem _ hb)
    refine ⟨⟨f a, m a, h a List.mem_cons_self⟩ :: ps, ?_, fun σ => ?_⟩
    · rw [List.map_cons, List.map_cons, hps]
    · rw [List.map_cons, List.map_cons, hm σ]

theorem visible_map (ps : List Phrase) : visible (ps.map fragment) = ps.map fragment := by
  refine List.filter_eq_self.2 fun f hf => ?_
  obtain ⟨p, -, rfl⟩ := List.mem_map.1 hf
  rw [Bool.not_eq_true', Bool.eq_false_iff, ne_eq, Fragment.isEmpty_iff]
  exact p.primary.sql_ne_empty

theorem readsLinks (k : Connective) (ps : List Phrase) :
    ReadsLinks k (ps.flatMap fun p => .text (Junction.separator k) :: p.fragment)
      (ps.map truth) := by
  induction ps with
  | nil => exact .nil k
  | cons p ps ih => exact p.primary.link ih

/-- Primaries joined by one connective are a condition. -/
theorem readsCondition_join (k : Connective) (p : Phrase) (ps : List Phrase) :
    (join (Junction.separator k) ((p :: ps).map fragment)).ReadsCondition fun σ =>
      (ps.map fun p => p.truth σ).foldl k.apply (p.truth σ) := by
  have h := p.primary.chain (readsLinks k ps)
  rw [List.map_cons, join_cons, List.flatMap_map]
  simpa [Function.comp_def] using h

/-- Primaries conjoined are a primary, in parentheses if there are several. -/
theorem readsPrimary_conjoined (p : Phrase) (ps : List Phrase) :
    (conjoined ((p :: ps).map fragment)).ReadsPrimary fun σ =>
      (p :: ps).all fun p => p.truth σ := by
  cases ps with
  | nil => simpa [conjoined] using p.primary
  | cons q ps =>
    obtain ⟨ts, F, hreads, hprimary, hm⟩ := (readsCondition_join .and p (q :: ps)).enclosed
    -- joining from the left by AND asks whether all of them hold
    refine ⟨ts, F, hreads, hprimary, fun σ => ?_⟩
    rw [hm σ]
    show ((q :: ps).map fun p => p.truth σ).foldl Connective.and.apply (p.truth σ) = _
    rw [Connective.foldl_and, List.all_map]
    rfl

end Phrase

/-! ### Conditions -/

/-- The tokens of values in a list, with the parenthesis that closes it. -/
def Token.listed : Value → List Value → List (Token Value)
  | v, [] => [.mark v, .closing]
  | v, w :: vs => .mark v :: .comma :: listed w vs

theorem Formula.readValues_listed (v : Value) (vs : List Value) (us : List (Token Value)) :
    readValues (Token.listed v vs ++ us) = some (v :: vs, us) := by
  induction vs generalizing v with
  | nil => rfl
  | cons w vs ih =>
    rw [Token.listed, List.cons_append, List.cons_append, readValues, ih w]
    rfl

/-- The tokens of the operator of a comparison. -/
def Comparison.tokens : Comparison → List (Token Value)
  | .like => [.keyword .like]
  | .notLike => [.keyword .not, .keyword .like]
  | op => [.sign op.sql]

/-- The tokens of the word in front of a negated condition. -/
def negationTokens (negated : Bool) : List (Token Value) := if negated then [.keyword .not] else []

namespace Condition

variable {key n : String} {s : Scope}

/-- A key with a test behind it is a primary. -/
theorem readsPrimary_of_test (hkey : Token.scan key = [.word n]) {t : String} {g : Fragment}
    {ts us : List (Token Value)} {F : Formula} (hstart : Token.startsApart t = true)
    (hend : Token.endsApart t = true ∧ t ≠ "" ∨ Token.startsApart g.sql = true)
    (ht : Reads [.text t] ts) (hg : g.Reads us) (htest : IsTest n (ts ++ us) F) :
    ReadsPrimary (.text (key ++ t) :: g) fun σ => F.eval σ := by
  have hseam := hend.imp_left fun h => Token.endsApart_append (s := key) h.1 h.2
  exact ⟨_, F, (reads_key hkey hstart ht).text hg hseam, htest.isPrimary, fun _ => rfl⟩

/-- A test that is nothing but text behind the key. -/
theorem readsPrimary_of_text (hkey : Token.scan key = [.word n]) {t : String}
    {ts : List (Token Value)} {F : Formula} (hstart : Token.startsApart t = true)
    (ht : Reads [.text t] ts) (htest : IsTest n ts F) :
    (ofText (key ++ t)).ReadsPrimary fun σ => F.eval σ := by
  have hts : IsTest n (ts ++ []) F := (List.append_nil ts).symm ▸ htest
  exact readsPrimary_of_test hkey hstart (.inr (by decide)) ht reads_nil hts

/-- A test of which the text ends in a piece that does not join with what stands behind it. -/
theorem readsPrimary_of_pieces (hkey : Token.scan key = [.word n]) {a b : String} {g : Fragment}
    {ts us : List (Token Value)} {F : Formula} (hend : Token.endsApart b = true) (hb : b ≠ "")
    (ht : Reads [.text (" " ++ a ++ b)] ts) (hg : g.Reads us) (htest : IsTest n (ts ++ us) F) :
    ReadsPrimary (.text (key ++ " " ++ a ++ b) :: g) fun σ => F.eval σ := by
  have hstart : Token.startsApart (" " ++ a ++ b) = true := by
    rw [String.append_assoc]
    exact Token.startsApart_append (by decide) (by decide)
  have hne : " " ++ a ++ b ≠ "" := fun h => hb (String.append_eq_empty_iff.1 h).2
  have hend' := Token.endsApart_append (s := " " ++ a) hend hb
  have h := readsPrimary_of_test hkey hstart (.inl ⟨hend', hne⟩) ht hg htest
  simp only [String.append_assoc] at h ⊢
  exact h

theorem readsPrimary_isNull (hkey : Token.scan key = [.word n]) :
    (ofText (key ++ " IS NULL")).ReadsPrimary fun σ => σ n .isNull := by
  have ht : Reads [.text " IS NULL"] [.keyword .is, .keyword .null] := rfl
  have htest : IsTest n [.keyword .is, .keyword .null] (.test n .isNull) := fun _ => rfl
  exact readsPrimary_of_text hkey (by decide) ht htest

theorem readsPrimary_isNotNull (hkey : Token.scan key = [.word n]) :
    (ofText (key ++ " IS NOT NULL")).ReadsPrimary fun σ => σ n .isNotNull := by
  have ht : Reads [.text " IS NOT NULL"] [.keyword .is, .keyword .not, .keyword .null] := rfl
  have htest : IsTest n [.keyword .is, .keyword .not, .keyword .null] (.test n .isNotNull) :=
    fun _ => rfl
  exact readsPrimary_of_text hkey (by decide) ht htest

/-- A comparison is a test for null, or its operator and a mark behind the key. -/
theorem compare_cases (key n : String) (op : Comparison) (v : Value) :
    op = .eq ∧ v = .null ∨ op = .neq ∧ v = .null ∨
      (∀ σ, holds σ n (.compare op v) = σ n (.compare op v)) ∧
        op.render key v = [.text (key ++ " " ++ op.sql ++ " "), .mark v] := by
  cases op <;> cases v <;> simp [holds, Comparison.render]

theorem readsPrimary_compare (hkey : Token.scan key = [.word n]) (op : Comparison) (v : Value) :
    (op.render key v).ReadsPrimary fun σ => holds σ n (.compare op v) := by
  rcases compare_cases key n op v with ⟨rfl, rfl⟩ | ⟨rfl, rfl⟩ | ⟨hholds, hrender⟩
  · exact readsPrimary_isNull hkey
  · exact readsPrimary_isNotNull hkey
  · have ht : Reads [.text (" " ++ op.sql ++ " ")] op.tokens := by cases op <;> rfl
    have htest : IsTest n (op.tokens ++ [.mark v]) (.test n (.compare op v)) := by
      intro us
      cases op <;> rfl
    rw [hrender, funext hholds]
    exact readsPrimary_of_pieces hkey (by decide) (by decide) ht (reads_mark v) htest

theorem readsPrimary_between (hkey : Token.scan key = [.word n]) (low high : Value)
    (negated : Bool) :
    ReadsPrimary [.text (key ++ " " ++ negation negated ++ "BETWEEN "), .mark low, .text " AND ",
      .mark high] fun σ => σ n (.between low high negated) := by
  have ht : Reads [.text (" " ++ negation negated ++ "BETWEEN ")]
      (negationTokens negated ++ [.keyword .between]) := by cases negated <;> rfl
  have hbounds : Reads [.mark low, .text " AND ", .mark high]
      [.mark low, .keyword (.connective .and), .mark high] :=
    (reads_mark low).append ((reads_separator .and).text (reads_mark high) (.inl (by decide)))
      (.inr (Token.startsApart_append (s := " AND ") (by decide) (by decide)))
  have htest : IsTest n (negationTokens negated ++ [.keyword .between] ++
      [.mark low, .keyword (.connective .and), .mark high])
      (.test n (.between low high negated)) := by
    intro us
    cases negated <;> rfl
  exact readsPrimary_of_pieces hkey (by decide) (by decide) ht hbounds htest

theorem reads_marks (v : Value) (vs : List Value) :
    Reads (marks (v :: vs) ++ [.text ")"]) (Token.listed v vs) := by
  induction vs generalizing v with
  | nil =>
    have hclosing : Reads [.text ")"] [.closing] := rfl
    exact (reads_mark v).append hclosing (.inr (by decide))
  | cons w vs ih =>
    have hcomma : Reads [.text ","] [.comma] := rfl
    have hrest := hcomma.text (ih w) (.inl (by decide))
    have hstart := Token.startsApart_append (s := ",") (t := sql (marks (w :: vs) ++ [.text ")"]))
      (by decide) (by decide)
    exact (reads_mark v).append hrest (.inr hstart)

/-- What is written for an empty list is a constant. -/
theorem readsPrimary_constant (b : Bool) :
    (ofText (if b then "1=1" else "1=0")).ReadsPrimary fun _ => b := by
  cases b with
  | false =>
    have htest : IsTest "1" [.sign "=", .word "0"] (.constant false) := fun _ => rfl
    exact ⟨_, _, rfl, htest.isPrimary, fun _ => rfl⟩
  | true =>
    have htest : IsTest "1" [.sign "=", .word "1"] (.constant true) := fun _ => rfl
    exact ⟨_, _, rfl, htest.isPrimary, fun _ => rfl⟩

theorem readsPrimary_members (hkey : Token.scan key = [.word n]) (vs : List Value)
    (negated : Bool) :
    (renderMembers key vs negated).ReadsPrimary fun σ => holds σ n (.inList vs negated) := by
  cases vs with
  | nil =>
    exact readsPrimary_constant negated
  | cons v vs =>
    have ht : Reads [.text (" " ++ negation negated ++ "IN (")]
        (negationTokens negated ++ [.keyword .within, .opening]) := by cases negated <;> rfl
    have htest : IsTest n (negationTokens negated ++ [.keyword .within, .opening] ++
        Token.listed v vs) (.test n (.inList (v :: vs) negated)) := by
      intro us
      have hvalues := Formula.readValues_listed v vs us
      cases negated <;> simp [negationTokens, Formula.readTest, Formula.readNegatable, hvalues]
    exact readsPrimary_of_pieces hkey (by decide) (by decide) ht (reads_marks v vs) htest

/-- A test on a field is read as it is meant. -/
theorem readsPrimary_render (hkey : Token.scan key = [.word n]) {c : Condition}
    (hc : c.isTest = true) : (c.render s key).ReadsPrimary fun σ => c.holds σ n := by
  cases c with
  | compare op v => exact readsPrimary_compare hkey op v
  | isNull => exact readsPrimary_isNull hkey
  | isNotNull => exact readsPrimary_isNotNull hkey
  | inList vs negated => exact readsPrimary_members hkey vs negated
  | between low high negated => exact readsPrimary_between hkey low high negated
  | _ => exact absurd hc (by simp [isTest])

/-- Conditions on one field are read as their conjunction. -/
theorem readsPrimary_conjoined (hkey : Token.scan key = [.word n]) {cs : List Condition}
    (hne : cs ≠ []) (hcs : ∀ c ∈ cs, c.isTest = true) :
    (conjoined (Condition.renderEach s key cs)).ReadsPrimary fun σ => cs.all (holds σ n) := by
  obtain ⟨ps, hps, hm⟩ := Phrase.exists_map cs (f := Condition.render s key)
    (m := fun c σ => c.holds σ n) fun c hc => readsPrimary_render hkey (hcs c hc)
  have hall : ∀ σ, cs.all (holds σ n) = ps.all fun p => p.truth σ := by
    intro σ
    have h := congrArg (List.all · id) (hm σ)
    simpa [List.all_map, Function.comp_def] using h
  rw [Condition.renderEach_eq_map, hps, funext hall]
  cases ps with
  | nil => exact absurd (List.map_eq_nil_iff.1 hps) hne
  | cons p ps => exact Phrase.readsPrimary_conjoined p ps

end Condition

/-! ### Entries -/

/-- A scope that writes each plain name as one word: no table has an alias, and the dialect is one
of the two. -/
structure Scope.IsBare (s : Scope) : Prop where
  dialect : s.renderer.dialect = .generic ∨ s.renderer.dialect = .mysql
  aliases : s.aliases = {}

variable {s : Scope}

/-- Tests on the fields that a field text stands for are read as they are meant. -/
theorem exists_phrase_renderField (hs : s.IsBare) {name : String} {cs : List Condition}
    (hfields : Name.fields name ≠ []) (hplain : ∀ n ∈ Name.fields name, Name.IsPlain n)
    (hne : cs ≠ []) (hcs : ∀ c ∈ cs, c.isTest = true) :
    ∃ p : Phrase, renderField s name (fun key => Condition.renderEach s key cs) = p.fragment ∧
      ∀ σ, Name.meaning σ name cs = some (p.truth σ) := by
  have hname : ∀ n ∈ Name.fields name,
      (conjoined (Condition.renderEach s (s.key n) cs)).ReadsPrimary
        fun σ => cs.all (Condition.holds σ n) := fun n hn =>
    Condition.readsPrimary_conjoined (Scope.scan_key hs.dialect hs.aliases (hplain n hn)) hne hcs
  cases hfan : Name.fanOut? name with
  | none =>
    rw [Name.fields_of_none hfan] at hname
    refine ⟨⟨_, _, hname name List.mem_cons_self⟩, ?_, fun σ => ?_⟩
    · simp [renderField, hfan]
    · simp [Name.meaning, hfan]
  | some r =>
    obtain ⟨k, names⟩ := r
    rw [Name.fields_of_fanOut? hfan] at hname hfields
    obtain ⟨ps, hps, hm⟩ := Phrase.exists_map names hname
    cases ps with
    | nil => exact absurd (List.map_eq_nil_iff.1 hps) hfields
    | cons p ps =>
      refine ⟨⟨_, _, (Phrase.readsCondition_join k p ps).enclosed⟩, ?_, fun σ => ?_⟩
      · simp only [renderField, hfan, Junction.render, hps]
      · simp only [Name.meaning, hfan, hm σ]
        rfl

/-- The entry is silent, or it is read as it is meant. -/
def Entry.IsRead (s : Scope) (e : Entry) : Prop :=
  ∃ p : Option Phrase, visible [e.render s] = p.toList.map Phrase.fragment ∧
    ∀ σ, e.meaning σ = p.map fun p => p.truth σ

/-- The entries that are not silent, as phrases. -/
theorem Entry.exists_phrases {es : List Entry} (h : ∀ e ∈ es, e.IsRead s) :
    ∃ ps : List Phrase, visible (Entry.renderEach s es) = ps.map Phrase.fragment ∧
      ∀ σ, Entry.meanings σ es = ps.map fun p => p.truth σ := by
  induction es with
  | nil => exact ⟨[], rfl, fun _ => rfl⟩
  | cons e es ih =>
    obtain ⟨p, hp, hmp⟩ := h e List.mem_cons_self
    obtain ⟨ps, hps, hmps⟩ := ih fun a ha => h a (List.mem_cons_of_mem _ ha)
    refine ⟨p.toList ++ ps, ?_, fun σ => ?_⟩
    · have hcons : visible (e.render s :: Entry.renderEach s es) =
          visible [e.render s] ++ visible (Entry.renderEach s es) :=
        List.filter_append [e.render s] _
      rw [Entry.renderEach, hcons, hp, hps, List.map_append]
    · rw [Entry.meanings, hmp σ, hmps σ, List.map_append]
      cases p <;> rfl

/-! ### Branches -/

/-- A junction that is read as a condition, and its truth. -/
structure BranchPhrase where
  junction : Junction
  truth : Truth → Bool
  condition : junction.render.ReadsCondition truth

/-- The branches that have conditions, as phrases. -/
theorem Branch.exists_phrases {bs : List Branch} (h : ∀ b ∈ bs, ∀ e ∈ b.entries, e.IsRead s) :
    ∃ cs : List BranchPhrase, Filter.populated s bs = cs.map BranchPhrase.junction ∧
      ∀ σ, Branch.meanings σ bs = cs.map fun c => (c.junction.connective, c.truth σ) := by
  induction bs with
  | nil => exact ⟨[], rfl, fun _ => rfl⟩
  | cons b bs ih =>
    obtain ⟨k, es⟩ := b
    obtain ⟨ps, hps, hmps⟩ := Entry.exists_phrases (h ⟨k, es⟩ List.mem_cons_self)
    obtain ⟨cs, hcs, hmcs⟩ := ih fun a ha => h a (List.mem_cons_of_mem _ ha)
    rw [Filter.populated] at hcs
    cases ps with
    | nil =>
      -- nothing is written for the branch, and it is not counted among those that are
      refine ⟨cs, ?_, fun σ => ?_⟩
      · simp [Filter.populated, Branch.renderEach, Branch.render, hps, hcs]
      · simp [Branch.meanings, hmps σ, hmcs σ, Connective.fold]
    | cons p ps =>
      refine ⟨⟨⟨k, (p :: ps).map Phrase.fragment⟩, _, Phrase.readsCondition_join k p ps⟩ :: cs, ?_,
        fun σ => ?_⟩
      · simp [Filter.populated, Branch.renderEach, Branch.render, hps, hcs]
      · simp [Branch.meanings, hmps σ, hmcs σ, Connective.fold]

/-- No more than two branches are read as they are meant. Of a single one there are no parentheses;
of two there is one connective between them. -/
theorem Branch.readsCondition_renderNonempty {cs : List BranchPhrase} (hfew : cs.length ≤ 2) :
    (cs = [] ∧ ∀ σ : Truth, Branch.combine
      (cs.map fun c => (c.junction.connective, c.truth σ)) = none) ∨
    ∃ m, (Junction.renderNonempty (cs.map BranchPhrase.junction)).ReadsCondition m ∧
      ∀ σ, Branch.combine (cs.map fun c => (c.junction.connective, c.truth σ)) = some (m σ) := by
  match cs with
  | [] => exact .inl ⟨rfl, fun _ => rfl⟩
  | [c] => exact .inr ⟨c.truth, c.condition, fun _ => rfl⟩
  | [c, d] =>
    have hlinks := d.condition.enclosed.link (.nil d.junction.connective)
    exact .inr ⟨_, c.condition.enclosed.chain hlinks, fun _ => rfl⟩
  | c :: d :: e :: cs => simp at hfew

/-- A clause is silent, or it is read as it is meant, if its entries are. -/
theorem Filter.readsCondition_renderAll {bs : List Branch} (hfew : (populated s bs).length ≤ 2)
    (h : ∀ b ∈ bs, ∀ e ∈ b.entries, e.IsRead s) :
    (Junction.renderAll (Branch.renderEach s bs) = [] ∧ ∀ σ, meaning σ bs = none) ∨
    ∃ m, (Junction.renderAll (Branch.renderEach s bs)).ReadsCondition m ∧
      ∀ σ, meaning σ bs = some (m σ) := by
  obtain ⟨cs, hcs, hm⟩ := Branch.exists_phrases h
  have hrender : Junction.renderAll (Branch.renderEach s bs) =
      Junction.renderNonempty (cs.map BranchPhrase.junction) := by
    rw [← hcs]
    rfl
  have hmeaning : ∀ σ, meaning σ bs =
      Branch.combine (cs.map fun c => (c.junction.connective, c.truth σ)) := fun σ => by
    rw [meaning, hm σ]
  rw [hcs, List.length_map] at hfew
  rw [hrender]
  simp only [hmeaning]
  rcases Branch.readsCondition_renderNonempty hfew with ⟨rfl, hnone⟩ | hsome
  · exact .inl ⟨rfl, hnone⟩
  · exact .inr hsome

/-- Plain entries are read as they are meant. -/
theorem Entry.isRead_of_isPlain (hs : s.IsBare) {e : Entry} (h : e.IsPlain s) : e.IsRead s := by
  induction h with
  | @field name cs hfields hplain hne hcs =>
    obtain ⟨p, hp, hm⟩ := exists_phrase_renderField hs hfields hplain hne hcs
    refine ⟨some p, ?_, hm⟩
    rw [Entry.render, hp]
    exact Phrase.visible_map [p]
  | @group bs hfew _ ih =>
    rcases Filter.readsCondition_renderAll hfew ih with ⟨hnil, hnone⟩ | ⟨m, hread, hsome⟩
    · refine ⟨none, ?_, hnone⟩
      rw [Entry.render, hnil]
      rfl
    · -- the group is not silent, so it is written in parentheses
      have hany : (Entry.group bs).render s =
          (Junction.renderAll (Branch.renderEach s bs)).enclosed := by
        rw [Entry.render, enclosedIfAny, if_neg]
        rw [Fragment.isEmpty_iff]
        exact hread.sql_ne_empty
      refine ⟨some ⟨_, m, hread.enclosed⟩, ?_, hsome⟩
      rw [hany]
      exact Phrase.visible_map [⟨_, m, hread.enclosed⟩]

/-! ### Clauses -/

/-- A fragment that is a condition is read as a whole. -/
theorem Fragment.ReadsCondition.exists_read {f : Fragment} {m : Truth → Bool}
    (h : f.ReadsCondition m) :
    ∃ F, Formula.read? f.sql (Params.unnamed f.params) = some (some F) ∧ ∀ σ, F.eval σ = m σ := by
  obtain ⟨ts, F, hreads, hcondition, hm⟩ := h
  refine ⟨F, ?_, hm⟩
  rw [Formula.read?, hreads, Option.bind_some, hcondition.readAll?]

/-- The text of a plain clause can be read by the grammar of conditions, and what is read has the
meaning of the clause for every truth of its tests. -/
theorem Document.read_renderFilter {r : Renderer}
    (hr : r.dialect = .generic ∨ r.dialect = .mysql) {d : Document} (ha : d.aliases = {})
    (h : Filter.IsPlain (d.scope r) d.filter) :
    ∃ x, Formula.read? (d.renderFilter r).sql (Params.unnamed (d.renderFilter r).params) = some x ∧
      ∀ σ, (x.map fun F => F.eval σ) = Filter.meaning σ d.filter := by
  have hs : (d.scope r).IsBare := ⟨hr, ha⟩
  have hentries : ∀ b ∈ d.filter, ∀ e ∈ b.entries, e.IsRead (d.scope r) := fun b hb e he =>
    Entry.isRead_of_isPlain hs (h.entries b hb e he)
  rcases Filter.readsCondition_renderAll h.few hentries with ⟨hnil, hnone⟩ | ⟨m, hread, hsome⟩
  · refine ⟨none, ?_, fun σ => (hnone σ).symm⟩
    rw [renderFilter, hnil]
    rfl
  · obtain ⟨F, hF, hm⟩ := hread.exists_read
    refine ⟨some F, hF, fun σ => ?_⟩
    rw [Option.map_some, hm σ, hsome σ]

/-- A clause with a field text for any of two fields, two conditions on each of them, and groups, of
which one is silent. -/
def Document.nestedSample : Document :=
  { filter := [
      ⟨.and, [
        .field "a|t.b" [.compare .ge (.int 1), .between (.int 2) (.int 3) true],
        .group [⟨.or, [.group []]⟩]]⟩,
      ⟨.or, [
        .field "c" [.inList [.int 4, .int 5] false],
        .group [⟨.and, [.field "d" [.inList [] true]]⟩, ⟨.xor, [.field "d" [.isNull]]⟩]]⟩] }

theorem Document.isPlain_nestedSample (s : Scope) : Filter.IsPlain s nestedSample.filter := by
  have hgroup : ∀ bs : List Branch, bs.length ≤ 2 → (∀ b ∈ bs, ∀ e ∈ b.entries, e.IsPlain s) →
      (Entry.group bs).IsPlain s := fun bs hlen h =>
    .group ((Filter.length_populated_le s bs).trans hlen) h
  have hfield : ∀ (n : String) (names : List String) (c : Condition) (cs : List Condition),
      Name.fields n = names → names ≠ [] → (∀ n ∈ names, Name.IsPlain n) →
      (∀ d ∈ c :: cs, d.isTest = true) → (Entry.field n (c :: cs)).IsPlain s := by
    rintro n names c cs rfl hne hplain hcs
    exact .field hne hplain (List.cons_ne_nil c cs) hcs
  have hplain : Name.IsPlain "a" ∧ Name.IsPlain "t.b" ∧ Name.IsPlain "c" ∧ Name.IsPlain "d" := by
    decide
  have hab := hfield "a|t.b" ["a", "t.b"] (.compare .ge (.int 1)) [.between (.int 2) (.int 3) true]
    (by decide) (by simp) (by simp [hplain]) (by simp [Condition.isTest])
  have hc := hfield "c" ["c"] (.inList [.int 4, .int 5] false) [] (by decide) (by simp)
    (by simp [hplain]) (by simp [Condition.isTest])
  have hd := hfield "d" ["d"] (.inList [] true) [] (by decide) (by simp) (by simp [hplain])
    (by simp [Condition.isTest])
  have hnull := hfield "d" ["d"] .isNull [] (by decide) (by simp) (by simp [hplain])
    (by simp [Condition.isTest])
  have hsilent := hgroup [⟨.or, [.group []]⟩] (by simp)
    (by simpa using hgroup [] (by simp) (by simp))
  have hinner := hgroup [⟨.and, [.field "d" [.inList [] true]]⟩, ⟨.xor, [.field "d" [.isNull]]⟩]
    (by simp) (by simpa using ⟨hd, hnull⟩)
  refine ⟨Filter.length_populated_le s _, ?_⟩
  simpa [nestedSample] using ⟨⟨hab, hsilent⟩, hc, hinner⟩

theorem Document.read_renderFilter_nestedSample :
    Filter.IsPlain (nestedSample.scope { dialect := .mysql }) nestedSample.filter ∧
      ∃ x, Formula.read? (nestedSample.renderFilter { dialect := .mysql }).sql
          (Params.unnamed (nestedSample.renderFilter { dialect := .mysql }).params) = some x ∧
        ∀ σ, (x.map fun F => F.eval σ) = Filter.meaning σ nestedSample.filter :=
  ⟨isPlain_nestedSample _, read_renderFilter (.inr rfl) rfl (isPlain_nestedSample _)⟩

end SqlSelect
