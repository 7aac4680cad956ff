import CallLowering.Proofs.SemanticType.Spelling
import CallLowering.Signature.Basic

namespace CallLowering.SemanticType

/-- What becomes of a type whose first word has been passed. -/
def readBehind (depth : Nat) (word s : List Char) : Reading SemanticType :=
  if word="list".toList then
    expect '<' s fun s => (readType depth s).bind fun t s =>
    expect '>' s fun s => .reached (some (list t)) s
  else if word="map".toList then
    expect '<' s fun s => (readType depth s).bind fun k s =>
    expect ',' s fun s => (readType depth s).bind fun v s =>
    expect '>' s fun s => .reached (some (map k v)) s
  else .reached (ofKeyword? word) s

theorem readType_succ (depth : Nat) (s : List Char) :
    readType (depth+1) s=
      match skipBlank s with
      | none => .lost
      | some s => readBehind depth (s.takeWhile isWordChar) (s.dropWhile isWordChar) := rfl

theorem spaced_of_ofKeyword? {word : List Char} {t : SemanticType} (h : ofKeyword? word=some t) :
    Spaced t.tokens word := by
  have spelled {s : String} (eq : String.ofList word=s) : Spaced [s] word := by
    have chars : s.toList=word := by rw [←eq,String.toList_ofList]
    rw [←chars]
    exact .token s
  rw [ofKeyword?] at h
  split at h
  case h_9 => cases h
  all_goals
    next eq =>
      cases h
      exact spelled eq

/-- All that may come of reading a text: a type that is spelled by what has been passed, or none, behind what some
type begins with, or a reader that is lost there. -/
inductive Outcome (s : List Char) : Reading SemanticType → Prop
  | found {before rest : List Char} {t : SemanticType} (eq : s=before++rest) (h : Spaced t.tokens before) :
      Outcome s (.reached (some t) rest)
  | refused {before rest : List Char} {ts : List String} (eq : s=before++rest) (hb : Begins ts)
      (h : Spaced ts before) : Outcome s (.reached none rest)
  | lost (h : Strays s) : Outcome s .lost

section Outcomes

variable {s before rest : List Char} {ts : List String} {r : Reading SemanticType}

theorem expect_outcome {tok : Char} {next : List Char → Reading SemanticType} (eq : s=before++rest)
    (hb : Begins ts) (hs : Spaced ts before)
    (hnext : ∀ before rest, s=before++rest → Spaced (ts++[String.singleton tok]) before → Outcome s (next rest)) :
    Outcome s (expect tok rest next) := by
  rw [expect]
  cases hskip : skipBlank rest with
  | none =>
    obtain ⟨blank,c,rest,rfl,spaces,wide⟩ := skipBlank_none hskip
    exact .lost ⟨ts,before++blank,c,rest,by rw [eq,List.append_assoc],hb,hs.before_blank spaces,wide⟩
  | some rest' =>
    obtain ⟨blank,rfl,spaces⟩ := skipBlank_some hskip
    have passed := hs.before_blank spaces
    rw [←List.append_assoc] at eq
    cases rest' with
    | nil => exact .refused eq hb passed
    | cons c rest =>
      by_cases same : c=tok
      · have chars : (String.singleton tok).toList=[c] := by simp [same]
        simp only [if_pos same]
        exact hnext (before++blank++[c]) rest (by simp [eq]) (passed.append (chars ▸ .token _))
      · simp only [if_neg same]
        exact .refused eq hb passed

theorem Outcome.bind {next : SemanticType → List Char → Reading SemanticType} (eq : s=before++rest)
    (hb : ∀ us, Begins us → Begins (ts++us)) (hs : Spaced ts before) (h : Outcome rest r)
    (hnext : ∀ t before rest, s=before++rest → Spaced (ts++t.tokens) before → Outcome s (next t rest)) :
    Outcome s (r.bind next) := by
  cases h with
  | found eq' h => exact hnext _ _ _ (by rw [eq,eq',List.append_assoc]) (hs.append h)
  | refused eq' hb' h => exact .refused (by rw [eq,eq',List.append_assoc]) (hb _ hb') (hs.append h)
  | lost h =>
    obtain ⟨us,passed,c,behind,eq',hb',h,wide⟩ := h
    exact .lost ⟨_,_,c,behind,by rw [eq,eq',List.append_assoc],hb _ hb',hs.append h,wide⟩

end Outcomes

/-- What has been passed inside the brackets is put behind the tokens that open them. -/
theorem readType_outcome (depth : Nat) (s : List Char) : Outcome s (readType depth s) := by
  induction depth generalizing s with
  | zero => exact .refused (List.nil_append s).symm .nil (.nil (by simp))
  | succ depth ih =>
    rw [readType_succ]
    cases hskip : skipBlank s with
    | none =>
      obtain ⟨blank,c,rest,rfl,spaces,wide⟩ := skipBlank_none hskip
      exact .lost ⟨[],blank,c,rest,rfl,.nil,.nil spaces,wide⟩
    | some rest =>
      obtain ⟨blank,rfl,spaces⟩ := skipBlank_some hskip
      have chars : ∀ c∈rest.takeWhile isWordChar, isWordChar c := List.all_eq_true.mp List.all_takeWhile
      have eq : blank++rest=blank++rest.takeWhile isWordChar++rest.dropWhile isWordChar := by simp
      generalize blank++rest=s at eq
      simp only
      generalize rest.takeWhile isWordChar=word at chars eq
      generalize rest.dropWhile isWordChar=rest at eq
      rw [readBehind]
      by_cases isList : word="list".toList
      · have passed : Spaced ["list"] (blank++word) := isList ▸ .behind_blank spaces (.token _)
        rw [if_pos isList]
        refine expect_outcome eq (.word (by decide) (isList ▸ chars)) passed fun _ _ eq hs => ?_
        refine .bind eq (fun _ => .element) hs (ih _) fun t _ _ eq hs => ?_
        refine expect_outcome eq (.element (.whole t)) hs fun _ _ eq hs => ?_
        exact .found eq hs
      by_cases isMap : word="map".toList
      · have passed : Spaced ["map"] (blank++word) := isMap ▸ .behind_blank spaces (.token _)
        rw [if_neg isList,if_pos isMap]
        refine expect_outcome eq (.word (by decide) (isMap ▸ chars)) passed fun _ _ eq hs => ?_
        refine .bind eq (fun _ => .key) hs (ih _) fun k _ _ eq hs => ?_
        refine expect_outcome eq (.key (.whole k)) hs fun _ _ eq hs => ?_
        refine .bind eq (fun us hb => ?_) hs (ih _) fun v _ _ eq hs => ?_
        · simpa using Begins.value k hb
        refine expect_outcome eq (by simpa using Begins.value k (.whole v)) hs fun _ _ eq hs => ?_
        refine .found (t := map k v) eq ?_
        simpa [tokens] using hs
      rw [if_neg isList,if_neg isMap]
      cases hword : ofKeyword? word with
      | some t => exact .found eq (.behind_blank spaces (spaced_of_ofKeyword? hword))
      | none =>
        by_cases filled : word=[]
        · rw [filled,List.append_nil] at eq
          exact .refused eq .nil (.nil spaces)
        · have token : Spaced [String.ofList word] word := by
            have spelled := Spaced.token (String.ofList word)
            rwa [String.toList_ofList] at spelled
          refine .refused eq (.word ?_ ?_) (.behind_blank spaces token)
          · exact fun empty => filled (String.ofList_eq_empty_iff.mp empty)
          · rwa [String.toList_ofList]

section Passing

variable {p q blank rest : List Char}

/-- Passes a token, and perhaps white space behind it. -/
theorem expect_spaced (tok : Char) (ht : Text.isBlank tok=false) (hp : Spaced [String.singleton tok] p)
    (hb : ∀ c∈blank, isSpace c) :
    ∃ behind : List Char, (∀ c∈behind, isSpace c) ∧ behind.length < p.length ∧
      ∀ rest next, expect tok (blank++(p++rest)) next=next (behind++rest) := by
  cases hp with
  | @cons before behind _ _ h hs =>
    cases hs with
    | nil h' =>
      refine ⟨behind,h',by simp; omega,fun rest next => ?_⟩
      have dark : ∀ c∈(tok::(behind++rest)).head?, Text.isBlank c=false := by
        intro c hc
        cases hc
        exact ht
      have shape : before++(String.singleton tok).toList++behind++rest=before++tok::(behind++rest) := by simp
      rw [expect,skipBlank_append hb,shape,skipBlank_append h,skipBlank_of_head dark]
      simp only [if_true]

theorem readType_word (depth : Nat) {w : String} (filled : w.toList≠[]) (chars : ∀ c∈w.toList, isWordChar c)
    (hp : Spaced [w] p) :
    ∃ behind : List Char, (∀ c∈behind, isSpace c) ∧
      ∀ rest : List Char, (∀ c∈rest.head?, isWordChar c=false) →
        readType (depth+1) (p++rest)=readBehind depth w.toList (behind++rest) := by
  cases hp with
  | @cons before behind _ _ h hs =>
    cases hs with
    | nil h' =>
      refine ⟨behind,h',fun rest hr => ?_⟩
      have dark : ∀ c∈(w.toList++(behind++rest)).head?, Text.isBlank c=false := by
        obtain ⟨d,ds,hd⟩ := List.exists_cons_of_ne_nil filled
        rw [hd] at chars ⊢
        intro c hc
        cases hc
        exact not_isBlank_of_isWordChar (chars _ (by simp))
      have ends : ∀ c∈(behind++rest).head?, isWordChar c=false := by
        cases behind with
        | nil => exact hr
        | cons d behind =>
          intro c hc
          cases hc
          exact not_isWordChar_of_isBlank (isBlank_of_isSpace (h' _ (by simp)))
      have shape : before++w.toList++behind++rest=before++(w.toList++(behind++rest)) := by simp
      rw [readType_succ,shape,skipBlank_append h,skipBlank_of_head dark]
      simp only [Lexicon.takeWhile_append chars ends,Lexicon.dropWhile_append chars ends]

theorem readType_list (depth : Nat) (hp : Spaced ["list"] p) (hq : Spaced ["<"] q) (rest : List Char) :
    ∃ behind, (∀ c∈behind, isSpace c) ∧ readType (depth+1) (p++(q++rest))=
      expect '<' (behind++(q++rest)) fun s => (readType depth s).bind fun t s =>
      expect '>' s fun s => .reached (some (list t)) s := by
  obtain ⟨behind,spaces,word⟩ := readType_word depth (by decide) (by decide) hp
  refine ⟨behind,spaces,?_⟩
  rw [word _ (hq.ends_word ⟨'<',[],rfl,rfl⟩ rest),readBehind,if_pos rfl]

theorem readType_map (depth : Nat) (hp : Spaced ["map"] p) (hq : Spaced ["<"] q) (rest : List Char) :
    ∃ behind, (∀ c∈behind, isSpace c) ∧ readType (depth+1) (p++(q++rest))=
      expect '<' (behind++(q++rest)) fun s => (readType depth s).bind fun k s =>
      expect ',' s fun s => (readType depth s).bind fun v s =>
      expect '>' s fun s => .reached (some (map k v)) s := by
  obtain ⟨behind,spaces,word⟩ := readType_word depth (by decide) (by decide) hp
  refine ⟨behind,spaces,?_⟩
  rw [word _ (hq.ends_word ⟨'<',[],rfl,rfl⟩ rest),readBehind,if_neg (by decide),if_pos rfl]

/-- However the type is spelled, it is found, if nothing follows that makes its last word longer. White space
behind it may be left. -/
def IsFound (t : SemanticType) : Prop :=
  ∀ {s rest : List Char} {depth : Nat}, Spaced t.tokens s → s.length < depth →
    (∀ c∈rest.head?, isWordChar c=false) →
    ∃ behind, (∀ c∈behind, isSpace c) ∧ readType depth (s++rest)=.reached (some t) (behind++rest)

/-- Passes a token and the type behind it. -/
theorem expect_type (depth : Nat) (tok : Char) {t : SemanticType} (ht : Text.isBlank tok=false) (found : IsFound t)
    (hp : Spaced [String.singleton tok] p) (hq : Spaced t.tokens q) (hb : ∀ c∈blank, isSpace c)
    (hdepth : p.length+q.length ≤ depth) (hr : ∀ c∈rest.head?, isWordChar c=false)
    (next : SemanticType → List Char → Reading SemanticType) :
    ∃ behind, (∀ c∈behind, isSpace c) ∧
      expect tok (blank++(p++(q++rest))) (fun s => (readType depth s).bind next)=next t (behind++rest) := by
  obtain ⟨before,spaces,shorter,passed⟩ := expect_spaced tok ht hp hb
  have small : (before++q).length < depth := by
    rw [List.length_append]
    omega
  obtain ⟨behind,spaces',reached⟩ := found (hq.behind_blank spaces) small hr
  rw [List.append_assoc] at reached
  exact ⟨behind,spaces',by rw [passed,reached]; rfl⟩

theorem isFound (t : SemanticType) : IsFound t := by
  induction t with
  | list a ih =>
    intro s rest depth hs hdepth hr
    obtain ⟨depth,rfl⟩ := Nat.exists_eq_succ_of_ne_zero (Nat.ne_zero_of_lt hdepth)
    obtain ⟨p,q,_,rfl,hp,hq,hs⟩ := Spaced.opened hs
    obtain ⟨u,v,rfl,hu,hv⟩ := Spaced.split _ hs
    simp only [List.length_append] at hdepth
    obtain ⟨_,spaces,opened⟩ := readType_list depth hp hq (u++(v++rest))
    obtain ⟨_,spaces,element⟩ := expect_type depth '<' rfl ih hq hu spaces (by omega)
      (hv.ends_word ⟨'>',[],rfl,rfl⟩ rest) _
    obtain ⟨behind,spaces,-,closed⟩ := expect_spaced '>' rfl hv spaces
    refine ⟨behind,spaces,?_⟩
    simp only [List.append_assoc]
    rw [opened,element,closed]
  | map k v ihk ihv =>
    intro s rest depth hs hdepth hr
    obtain ⟨depth,rfl⟩ := Nat.exists_eq_succ_of_ne_zero (Nat.ne_zero_of_lt hdepth)
    obtain ⟨p,q,_,rfl,hp,hq,hs⟩ := Spaced.opened hs
    obtain ⟨u,_,rfl,hu,hs⟩ := Spaced.split _ hs
    obtain ⟨w,_,rfl,hw,hs⟩ := Spaced.split [","] hs
    obtain ⟨x,y,rfl,hx,hy⟩ := Spaced.split _ hs
    simp only [List.length_append] at hdepth
    obtain ⟨_,spaces,opened⟩ := readType_map depth hp hq (u++(w++(x++(y++rest))))
    obtain ⟨_,spaces,key⟩ := expect_type depth '<' rfl ihk hq hu spaces (by omega)
      (hw.ends_word ⟨',',[],rfl,rfl⟩ (x++(y++rest))) _
    obtain ⟨_,spaces,value⟩ := expect_type depth ',' rfl ihv hw hx spaces (by omega)
      (hy.ends_word ⟨'>',[],rfl,rfl⟩ rest) _
    obtain ⟨behind,spaces,-,closed⟩ := expect_spaced '>' rfl hy spaces
    refine ⟨behind,spaces,?_⟩
    simp only [List.append_assoc]
    rw [opened,key,value,closed]
  | _ =>
    intro s rest depth hs hdepth hr
    obtain ⟨depth,rfl⟩ := Nat.exists_eq_succ_of_ne_zero (Nat.ne_zero_of_lt hdepth)
    obtain ⟨behind,spaces,read⟩ := readType_word depth (by decide) (by decide) hs
    exact ⟨behind,spaces,read rest hr⟩

end Passing

/-- What is concluded where the reader has come to, behind white space. -/
def verdict : Reading SemanticType → Parsed
  | .lost => .lost
  | .reached found rest =>
      match skipBlank rest,found with
      | none,_ => .lost
      | some [],some t => .type t
      | _,_ => .malformed

theorem parse_eq (s : String) : parse s=verdict (readType (s.toList.length+1) s.toList) := rfl

section Verdicts

variable {s blank : List Char} {r : Reading SemanticType} {t : SemanticType}

theorem verdict_type (h : verdict r=.type t) : ∃ blank, r=.reached (some t) blank ∧ ∀ c∈blank, isSpace c := by
  cases r with
  | lost => cases h
  | reached found rest =>
    rw [verdict.eq_def] at h
    simp only at h
    split at h
    · cases h
    · next hskip =>
      cases h
      obtain ⟨blank,rfl,spaces⟩ := skipBlank_some hskip
      rw [List.append_nil]
      exact ⟨blank,rfl,spaces⟩
    · cases h

theorem verdict_found (h : ∀ c∈blank, isSpace c) (t : SemanticType) : verdict (.reached (some t) blank)=.type t := by
  have skipped : skipBlank blank=some [] := by
    rw [←List.append_nil blank,skipBlank_append h]
    rfl
  rw [verdict.eq_def]
  simp only [skipped]

theorem Outcome.strays (h : Outcome s r) (hv : verdict r=.lost) : Strays s := by
  have beyond {before rest : List Char} {ts : List String} {found : Option SemanticType} (eq : s=before++rest)
      (hb : Begins ts) (passed : Spaced ts before) (hv : verdict (.reached found rest)=.lost) : Strays s := by
    rw [verdict.eq_def] at hv
    simp only at hv
    split at hv
    · next hskip =>
      obtain ⟨blank,c,behind,rfl,spaces,wide⟩ := skipBlank_none hskip
      exact ⟨ts,before++blank,c,behind,by rw [eq,List.append_assoc],hb,passed.before_blank spaces,wide⟩
    · cases hv
    · cases hv
  cases h with
  | found eq spelled => exact beyond eq (.whole _) spelled hv
  | refused eq hb passed => exact beyond eq hb passed hv
  | lost strays => exact strays

end Verdicts

theorem parse_type_iff {s : String} {t : SemanticType} : parse s=.type t ↔ Spaced t.tokens s.toList := by
  rw [parse_eq]
  constructor
  · intro h
    obtain ⟨blank,reached,spaces⟩ := verdict_type h
    have outcome := readType_outcome (s.toList.length+1) s.toList
    rw [reached] at outcome
    cases outcome with
    | found eq spelled =>
      rw [eq]
      exact spelled.before_blank spaces
  · intro spelled
    obtain ⟨blank,spaces,found⟩ := @isFound t _ [] _ spelled (Nat.lt_succ_self _) (by simp)
    rw [List.append_nil,List.append_nil] at found
    rw [found]
    exact verdict_found spaces t

theorem strays_of_parse {s : String} (h : parse s=.lost) : Strays s.toList :=
  (readType_outcome (s.toList.length+1) s.toList).strays h

theorem Strays.exists_isWide {s : List Char} (h : Strays s) : ∃ c∈s, isWide c := by
  obtain ⟨ts,before,c,behind,rfl,-,-,wide⟩ := h
  exact ⟨c,by simp,wide⟩

/-- An annotation is read as a type just if it spells the type. Of all other texts without white space of several
bytes none is read, and the error carries the text. What is printed of a type spells it. -/
theorem reads_spellings :
    (∀ (s : String) (t : SemanticType), read s=.ok t ↔ Spaced t.tokens s.toList) ∧
    (∀ s : String, (∀ c∈s.toList, isWide c=false) → (∀ t : SemanticType, ¬Spaced t.tokens s.toList) →
      read s=.error (.malformed s)) ∧
    ∀ t : SemanticType, read t.text=.ok t := by
  have read_iff (s : String) (t : SemanticType) : read s=.ok t ↔ Spaced t.tokens s.toList := by
    rw [←parse_type_iff,read]
    cases parse s <;> simp
  refine ⟨read_iff,fun s narrow unspelled => ?_,fun t => (read_iff t.text t).mpr t.tokens_spaced_text⟩
  rw [read]
  cases hp : parse s with
  | type t => exact absurd (parse_type_iff.mp hp) (unspelled t)
  | malformed => rfl
  | lost =>
    obtain ⟨c,hc,wide⟩ := (strays_of_parse hp).exists_isWide
    cases wide.symm.trans (narrow c hc)

/-- White space may stand anywhere between the tokens of a map, but a keyword behind a type is too much. -/
theorem reads_spellings_map :
    read " map<string ,\tlist< ? > >\n"=.ok (map string (list unknown)) ∧
      Spaced (map string (list unknown)).tokens " map<string ,\tlist< ? > >\n".toList ∧
      read "int int"=.error (.malformed "int int") ∧
      read (map string (list unknown)).text=.ok (map string (list unknown)) := by
  obtain ⟨spelled,refused,printed⟩ := reads_spellings
  have accepted : read " map<string ,\tlist< ? > >\n"=.ok (map string (list unknown)) := by decide
  refine ⟨accepted,(spelled _ _).mp accepted,refused "int int" (by decide) fun t ht => ?_,printed _⟩
  have other : read "int int"=.ok t := (spelled _ t).mpr ht
  cases other

end CallLowering.SemanticType
