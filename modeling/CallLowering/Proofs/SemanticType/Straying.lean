import CallLowering.Proofs.SemanticType.Annotation

namespace CallLowering.SemanticType

variable {s before behind rest blank : List Char} {ts : List String} {depth : Nat} {c : Char}

theorem verdict_lost {found : Option SemanticType} (h : skipBlank rest=none) :
    verdict (.reached found rest)=.lost := by
  rw [verdict.eq_def]
  simp only [h]

theorem expect_lost {tok : Char} {next : List Char → Reading SemanticType} (h : skipBlank s=none) :
    expect tok s next=.lost := by
  rw [expect,h]

/-- A reader that goes astray goes on doing so. -/
theorem bind_strays {r : Reading SemanticType} {next : SemanticType → List Char → Reading SemanticType}
    (h : verdict r=.lost) (hnext : ∀ t s, skipBlank s=none → next t s=.lost) : verdict (r.bind next)=.lost := by
  cases r with
  | lost => rfl
  | reached found rest =>
    cases found with
    | none => exact h
    | some t =>
      rw [verdict.eq_def] at h
      simp only at h
      split at h
      · next hskip =>
        rw [Reading.bind,hnext t rest hskip]
        rfl
      · cases h
      · cases h

theorem readBehind_strays (depth : Nat) (word : List Char) (h : skipBlank rest=none) :
    verdict (readBehind depth word rest)=.lost := by
  rw [readBehind]
  split
  · rw [expect_lost h]
    rfl
  split
  · rw [expect_lost h]
    rfl
  · exact verdict_lost h

theorem skipBlank_before_wide (hb : ∀ c∈blank, isSpace c) (wide : isWide c) (s : List Char) :
    skipBlank (blank++c::s)=none := by
  rw [skipBlank_append hb,skipBlank_wide wide]

/-- Whatever depth is left, the reader is lost at this character behind these tokens. -/
def StraysBehind (ts : List String) (c : Char) : Prop :=
  ∀ {before behind : List Char} {depth : Nat}, Spaced ts before → before.length < depth →
    verdict (readType depth (before++c::behind))=.lost

/-- Behind a bracket or a comma, the reader begins as if a type were to be read there alone. -/
theorem expect_strays (tok : Char) {p q : List Char} (strays : StraysBehind ts c)
    (ht : Text.isBlank tok=false) (hp : Spaced [String.singleton tok] p) (hq : Spaced ts q)
    (hb : ∀ c∈blank, isSpace c) (hdepth : p.length+q.length ≤ depth)
    {next : SemanticType → List Char → Reading SemanticType} (hnext : ∀ t s, skipBlank s=none → next t s=.lost) :
    verdict (expect tok (blank++(p++(q++c::behind))) fun s => (readType depth s).bind next)=.lost := by
  obtain ⟨before,spaces,shorter,passed⟩ := expect_spaced tok ht hp hb
  have small : (before++q).length < depth := by
    rw [List.length_append]
    omega
  rw [passed,←List.append_assoc]
  exact bind_strays (strays (hq.behind_blank spaces) small) hnext

theorem straysBehind (hb : Begins ts) (wide : isWide c) : StraysBehind ts c := by
  have ends (behind : List Char) : ∀ d∈(c::behind).head?, isWordChar d=false := by
    intro d hd
    cases hd
    exact not_isWordChar_of_isBlank (isBlank_of_isWide wide)
  -- on what has been passed; what is inside brackets is lost as it would be alone
  induction hb with
  | whole t =>
    intro before behind depth hs hdepth
    obtain ⟨_,spaces,found⟩ := isFound t hs hdepth (ends behind)
    rw [found]
    exact verdict_lost (skipBlank_before_wide spaces wide behind)
  | nil =>
    intro before behind depth hs hdepth
    obtain ⟨depth,rfl⟩ := Nat.exists_eq_succ_of_ne_zero (Nat.ne_zero_of_lt hdepth)
    cases hs with
    | nil spaces =>
      rw [readType_succ,skipBlank_before_wide spaces wide]
      rfl
  | word filled chars =>
    intro before behind depth hs hdepth
    obtain ⟨depth,rfl⟩ := Nat.exists_eq_succ_of_ne_zero (Nat.ne_zero_of_lt hdepth)
    have proper : _≠[] := fun empty => filled (String.toList_eq_nil_iff.mp empty)
    obtain ⟨_,spaces,word⟩ := readType_word depth proper chars hs
    rw [word _ (ends behind)]
    exact readBehind_strays depth _ (skipBlank_before_wide spaces wide behind)
  | element _ ih =>
    intro before behind depth hs hdepth
    obtain ⟨depth,rfl⟩ := Nat.exists_eq_succ_of_ne_zero (Nat.ne_zero_of_lt hdepth)
    obtain ⟨p,q,u,rfl,hp,hq,hu⟩ := Spaced.opened hs
    simp only [List.length_append] at hdepth
    obtain ⟨_,spaces,opened⟩ := readType_list depth hp hq (u++c::behind)
    simp only [List.append_assoc]
    rw [opened]
    exact expect_strays '<' ih rfl hq hu spaces (by omega) fun _ _ => expect_lost
  | key _ ih =>
    intro before behind depth hs hdepth
    obtain ⟨depth,rfl⟩ := Nat.exists_eq_succ_of_ne_zero (Nat.ne_zero_of_lt hdepth)
    obtain ⟨p,q,u,rfl,hp,hq,hu⟩ := Spaced.opened hs
    simp only [List.length_append] at hdepth
    obtain ⟨_,spaces,opened⟩ := readType_map depth hp hq (u++c::behind)
    simp only [List.append_assoc]
    rw [opened]
    exact expect_strays '<' ih rfl hq hu spaces (by omega) fun _ _ => expect_lost
  | value k _ ih =>
    intro before behind depth hs hdepth
    obtain ⟨depth,rfl⟩ := Nat.exists_eq_succ_of_ne_zero (Nat.ne_zero_of_lt hdepth)
    obtain ⟨p,q,_,rfl,hp,hq,hs⟩ := Spaced.opened hs
    obtain ⟨u,_,rfl,hu,hs⟩ := Spaced.split _ hs
    obtain ⟨w,x,rfl,hw,hx⟩ := Spaced.split [","] hs
    simp only [List.length_append] at hdepth
    obtain ⟨_,spaces,opened⟩ := readType_map depth hp hq (u++(w++(x++c::behind)))
    obtain ⟨_,spaces,key⟩ := expect_type depth '<' rfl (isFound k) hq hu spaces (by omega)
      (hw.ends_word ⟨',',[],rfl,rfl⟩ (x++c::behind)) _
    simp only [List.append_assoc]
    rw [opened,key]
    exact expect_strays ',' ih rfl hw hx spaces (by omega) fun _ _ => expect_lost

theorem parse_lost_iff {s : String} : parse s=.lost ↔ Strays s.toList := by
  refine ⟨strays_of_parse,?_⟩
  rintro ⟨ts,before,c,behind,eq,hb,hs,wide⟩
  have small : before.length < s.toList.length+1 := by
    rw [eq,List.length_append]
    omega
  have strays : verdict (readType (s.toList.length+1) (before++c::behind))=.lost := straysBehind hb wide hs small
  rwa [←eq,←parse_eq] at strays

/-- The reader does not leave the text. -/
theorem readType_suffix {found : Option SemanticType} (h : readType depth s=.reached found rest) : rest <:+ s := by
  have outcome := readType_outcome depth s
  rw [h] at outcome
  cases outcome with
  | found eq => exact ⟨_,eq.symm⟩
  | refused eq => exact ⟨_,eq.symm⟩

section Depth

variable {n m : Nat}

theorem expect_congr {tok : Char} {f g : List Char → Reading SemanticType}
    (h : ∀ rest : List Char, rest.length < s.length → f rest=g rest) : expect tok s f=expect tok s g := by
  rw [expect,expect]
  split
  · rfl
  · next hskip =>
    obtain ⟨blank,rfl,-⟩ := skipBlank_some hskip
    split
    · refine h _ ?_
      simp only [List.length_append,List.length_cons]
      omega
    · rfl
  · rfl

theorem bind_congr {r : Reading SemanticType} {f g : SemanticType → List Char → Reading SemanticType}
    (h : ∀ t rest, r=.reached (some t) rest → f t rest=g t rest) : r.bind f=r.bind g := by
  cases r with
  | lost => rfl
  | reached found rest =>
    cases found with
    | none => rfl
    | some t => exact h t rest rfl

/-- The reader passes at least the bracket before it reads a type inside. -/
theorem readBehind_congr (h : ∀ rest : List Char, rest.length < s.length → readType n rest=readType m rest)
    (word : List Char) : readBehind n word s=readBehind m word s := by
  rw [readBehind,readBehind]
  split
  · refine expect_congr fun inner shorter => ?_
    rw [h inner shorter]
  split
  · refine expect_congr fun inner shorter => ?_
    rw [h inner shorter]
    refine bind_congr fun k rest reached => expect_congr fun inner' shorter' => ?_
    have passed := (readType_suffix reached).length_le
    rw [h inner' (by omega)]
  · rfl

/-- More depth than there are characters makes no difference. -/
theorem readType_depth (hn : s.length < n) (hm : s.length < m) : readType n s=readType m s := by
  induction n generalizing m s with
  | zero => exact absurd hn (Nat.not_lt_zero _)
  | succ n ih =>
    obtain ⟨m,rfl⟩ := Nat.exists_eq_succ_of_ne_zero (Nat.ne_zero_of_lt hm)
    rw [readType_succ,readType_succ]
    cases hskip : skipBlank s with
    | none => rfl
    | some rest =>
      obtain ⟨blank,rfl,-⟩ := skipBlank_some hskip
      refine readBehind_congr (fun inner shorter => ?_) _
      have passed := (List.dropWhile_suffix isWordChar (l := rest)).length_le
      rw [List.length_append] at hn hm
      exact ih (by omega) (by omega)

end Depth

/-- Annotations are read one after another up to the first that is refused. -/
theorem mapM_error_iff {α β ε : Type} {f : α → Except ε β} {e : ε} {l : List α} :
    l.mapM f=.error e ↔ ∃ before a behind, l=before++a::behind ∧ (∀ b∈before, ∃ y, f b=.ok y) ∧ f a=.error e := by
  induction l with
  | nil => simp [pure,Except.pure]
  | cons a l ih =>
    rw [List.mapM_cons]
    cases ha : f a with
    | error e' =>
      constructor
      · intro h
        cases h
        exact ⟨[],a,l,rfl,by simp,ha⟩
      · rintro ⟨before,b,behind,eq,passed,hb⟩
        cases before with
        | nil =>
          cases eq
          rw [ha] at hb
          cases hb
          rfl
        | cons c before =>
          cases eq
          obtain ⟨y,hy⟩ := passed a (by simp)
          cases ha.symm.trans hy
    | ok y =>
      have step : (Except.ok y >>= fun y => l.mapM f >>= fun ys => pure (y::ys))=.error e ↔ l.mapM f=.error e := by
        cases l.mapM f <;> simp [bind,Except.bind,pure,Except.pure]
      rw [step,ih]
      constructor
      · rintro ⟨before,b,behind,rfl,passed,hb⟩
        exact ⟨a::before,b,behind,rfl,by simpa [ha] using passed,hb⟩
      · rintro ⟨before,b,behind,eq,passed,hb⟩
        cases before with
        | nil =>
          cases eq
          cases ha.symm.trans hb
        | cons c before =>
          cases eq
          exact ⟨before,b,behind,rfl,fun d hd => passed d (by simp [hd]),hb⟩

/-- An overload is refused with the error of the first annotation that is. -/
theorem overload_read_error_iff {params : List String} {returns : String} {e : TypeError} :
    Overload.read params returns=.error e ↔
      ∃ before w behind, params++[returns]=before++w::behind ∧ (∀ v∈before, ∃ t, read v=.ok t) ∧
        read w=.error e := by
  rw [←mapM_error_iff,List.mapM_append,List.mapM_cons,List.mapM_nil,Overload.read]
  cases params.mapM read with
  | error _ => simp [bind,Except.bind]
  | ok _ => cases read returns <;> simp [bind,Except.bind,pure,Except.pure]

/-- An annotation is read, or refused with an error that carries it, just if it does not come upon white space of
several bytes where white space is passed; else the reader is lost inside a character. Wherever the reader stands,
what is left ends the text, and more depth than there are characters makes no difference. An overload is refused
with the error of the first of its annotations that is not read. -/
theorem read_lost_iff (s : String) :
    ((∃ t, read s=.ok t) ∨ read s=.error (.malformed s) ↔ ¬Strays s.toList) ∧
    (read s=.error (.lost s) ↔ Strays s.toList) ∧
    (Strays s.toList → ∃ c∈s.toList, isWide c) ∧
    (∀ (depth : Nat) (found : Option SemanticType) (rest : List Char),
      readType depth s.toList=.reached found rest → rest <:+ s.toList) ∧
    (∀ depth : Nat, s.toList.length < depth → readType depth s.toList=readType (s.toList.length+1) s.toList) ∧
    ∀ (params : List String) (returns : String) (e : TypeError), Overload.read params returns=.error e ↔
      ∃ before w behind, params++[returns]=before++w::behind ∧ (∀ v∈before, ∃ t, read v=.ok t) ∧
        read w=.error e := by
  refine ⟨?_,?_,fun strays => strays.exists_isWide,fun depth found rest reached => readType_suffix reached,
    fun depth enough => readType_depth enough (Nat.lt_succ_self _),
    fun params returns e => overload_read_error_iff⟩
  · rw [←parse_lost_iff,read]
    cases parse s <;> simp
  · rw [←parse_lost_iff,read]
    cases parse s <;> simp

/-- A no-break space behind a keyword leads astray. Behind a text that is refused before it is reached it does
not, and an overload with a stray result is lost. -/
theorem read_lost_iff_noBreakSpace :
    Strays "list\u00a0<int>".toList ∧ ¬Strays "list(\u00a0)".toList ∧
      readType 9 "int".toList=readType 4 "int".toList ∧
      Overload.read ["int"] "\u00a0int"=.error (.lost "\u00a0int") := by
  obtain ⟨met,-⟩ := read_lost_iff "list(\u00a0)"
  obtain ⟨-,lost,-⟩ := read_lost_iff "list\u00a0<int>"
  obtain ⟨-,-,-,-,deep,overload⟩ := read_lost_iff "int"
  refine ⟨lost.mp (by decide),met.mp (.inr (by decide)),deep 9 (by decide),?_⟩
  exact (overload ["int"] "\u00a0int" _).mpr ⟨["int"],"\u00a0int",[],rfl,
    fun v hv => ⟨int,by rw [List.mem_singleton.mp hv]; decide⟩,by decide⟩

/-- Not every text is read or refused: before this word the reader is lost. -/
theorem not_read_or_refused :
    ¬∀ s : String, (∃ t, read s=.ok t) ∨ read s=.error (.malformed s) := by
  intro h
  have lost : read "\u00a0foo"=.error (.lost "\u00a0foo") := by decide
  obtain ⟨t,ht⟩|refused := h "\u00a0foo"
  · cases lost.symm.trans ht
  · cases lost.symm.trans refused

end CallLowering.SemanticType
