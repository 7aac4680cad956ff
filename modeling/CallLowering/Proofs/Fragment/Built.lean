import CallLowering.Proofs.Library.Text

namespace CallLowering

variable {a : Alphabet} {d : Dialect} {config : Config}

/-- A fragment that was built for a tree. Names are no keywords, and nothing else is asked of the parts. -/
inductive Dialect.Built (c : d.Configured a config) : Fragment → Tree → Prop
  | name {s : String} {ws : List String} (h : d.language.Names a s ws) : Built c (.atom s) (.name ws)
  | integer (n : Int64) : Built c (d.integer n) (d.integerTree n)
  | null : Built c d.null .null
  | binary {o : Operator} {f g : Fragment} {t u : Tree} (ho : o∈d.binaryOperators) (hf : Built c f t)
      (hg : Built c g u) : Built c (.binary o f g) (.binary o t u)
  | unary {o : Operator} {f : Fragment} {t : Tree} (ho : o∈d.unaryOperators) (hf : Built c f t) :
      Built c (.unary o f) (.unary o t)
  | conditional {f g h : Fragment} {t u v : Tree} (hf : Built c f t) (hg : Built c g u) (hh : Built c h v) :
      Built c (d.conditional f g h) (.conditional t u v)
  | isNull {f : Fragment} {t : Tree} (hf : Built c f t) : Built c (d.isNull f) (.binary d.same t .null)
  | isNotNull {f : Fragment} {t : Tree} (hf : Built c f t) :
      Built c (d.isNotNull f) (.binary d.different t .null)
  | call {callee : String} {ws : List String} {fs : List Fragment} {ts : List Tree}
      (hname : d.language.Names a callee ws) (hargs : List.Forall₂ (Built c) fs ts) :
      Built c (d.call callee fs) (.call ws ts [])
  | callWith {callee : String} {ws keys : List String} {fs gs : List Fragment} {ts us : List Tree}
      (hd : d=.python) (hname : d.language.Names a callee ws) (hargs : List.Forall₂ (Built c) fs ts)
      (hkeys : ∀ k∈keys, d.language.isWord a k ∧ k∉d.language.keywords)
      (hnamed : List.Forall₂ (Built c) gs us) :
      Built c (Python.callWith callee fs (keys.zip gs)) (.call ws ts (keys.zip us))
  | basic (b : BasicFunction) {r : Registry} {e : FunctionEntry} {l : TextLowering} {fs : List Fragment}
      {ts : List Tree} {g : Fragment} {t : Tree} (hr : Library.build config RoutineTable.standard=.ok r)
      (he : r.find? b.name=some e) (hl : d.capability e.capabilities=some l)
      (hargs : List.Forall₂ (Built c) fs ts) (h : l.lower ⟨b.name,config⟩ fs=.ok g)
      (ht : d.basicTree c (Library.RangeFunction.literalStep fs) b ts=some t) : Built c g t

namespace Fragment.Stands

theorem namedArguments {L : Language} {keys : List String} {gs : List Fragment} {us : List Tree}
    (hkeys : ∀ k∈keys, L.isWord a k ∧ k∉L.keywords) (hs : List.Forall₂ (Fragment.Stands a L) gs us) :
    List.Forall₂ (NamedArgument a L) (keys.zip gs) (keys.zip us) := by
  induction hs generalizing keys with
  | nil => simp
  | cons hg _ ih =>
    cases keys with
    | nil => simp
    | cons k keys => exact .cons ⟨rfl,hkeys k (by simp),hg⟩ (ih fun k hk => hkeys k (by simp [hk]))

/-- The text of the fragment has one reading, and that is the tree. -/
theorem reads {L : Language} (hL : L.Lawful) {f : Fragment} {t : Tree} (h : f.Stands a L t) :
    ∃ ts, L.lex a f.text.toList=some ts ∧ ∀ u, L.Parses .lowest ts u ↔ u=t := by
  obtain ⟨ts,spells,parses⟩ := h.operand.reading
  have whole := parses.mono f.precedence.lowest_le
  refine ⟨ts,?_,fun u => ⟨fun other => ?_,fun eq => ?_⟩⟩
  · have split := spells [] (fun c hc => by cases hc)
    have none : L.lex a []=some [] := by rw [Lexicon.lex]
    rwa [List.append_nil,none,Option.map_some,List.append_nil] at split
  · exact hL.parses_unique other whole
  · rw [eq]
    exact whole

end Fragment.Stands

namespace Dialect.Built

variable {c : d.Configured a config}

/-- Induction over how a fragment was built gives the hypothesis for all arguments. -/
theorem stands {f : Fragment} {t : Tree} (h : Built c f t) : f.Stands a d.language t := by
  refine @Built.rec a d config c (fun f t _ => f.Stands a d.language t)
    (fun fs ts _ => List.Forall₂ (Fragment.Stands a d.language) fs ts) ?name ?integer ?null ?binary ?unary
    ?conditional ?isNull ?isNotNull ?call ?callWith ?basic ?nil ?cons f t h
  case name => exact fun h => .name (d.written a) h
  case integer => exact fun n => .ofInteger d n
  case null => exact .ofNull d
  case binary => exact fun ho _ _ hf hg => .ofBinary d ho hf hg
  case unary => exact fun ho _ hf => .ofUnary d ho hf
  case conditional => exact fun _ _ _ hf hg hh => .ofConditional d hf hg hh
  case isNull =>
    intro f t _ hf
    have test := Fragment.Stands.ofBinary d d.same_mem hf (.ofNull d)
    cases d <;> exact test
  case isNotNull =>
    intro f t _ hf
    have test := Fragment.Stands.ofBinary d d.different_mem hf (.ofNull d)
    cases d <;> exact test
  case call => exact fun hname _ hargs => .ofCall d hname hargs
  case callWith =>
    intro callee ws keys fs gs ts us hd hname _ hkeys _ hargs hnamed
    subst hd
    exact .ofCallWith hname hargs (Fragment.Stands.namedArguments hkeys hnamed)
  case basic =>
    intro b r e l fs ts g t hr he hl _ h ht hargs
    obtain ⟨t',ht',stands⟩ := b.text_stands c (b.capability_standard hr he ▸ hl) hargs h
    cases ht.symm.trans ht'
    exact stands
  case nil => exact .nil
  case cons => exact fun _ _ hf hfs => .cons hf hfs

/-- Whatever a basic function is lowered to, if its arguments were built, was built itself. -/
theorem exists_basic (c : d.Configured a config) (b : BasicFunction) {r : Registry} {e : FunctionEntry}
    {l : TextLowering} {fs : List Fragment} {ts : List Tree} {g : Fragment}
    (hr : Library.build config RoutineTable.standard=.ok r) (he : r.find? b.name=some e)
    (hl : d.capability e.capabilities=some l) (hargs : List.Forall₂ (Built c) fs ts)
    (h : l.lower ⟨b.name,config⟩ fs=.ok g) : ∃ t, Built c g t := by
  have capable := b.capability_standard hr he ▸ hl
  obtain ⟨t,ht,-⟩ := b.text_stands c capable (hargs.imp fun _ _ => stands) h
  exact ⟨t,.basic b hr he hl hargs h ht⟩

/-- Generated text is split into tokens, and these are read as the tree that the text was built from and as no
other; and the fragment knows how tight its outermost operator binds. -/
theorem reads_back {f : Fragment} {t : Tree} (h : Built c f t) :
    (∃ ts, d.language.lex a f.text.toList=some ts ∧ ∀ u, d.language.Parses .lowest ts u ↔ u=t) ∧
      f.precedence=t.precedence d.language :=
  ⟨h.stands.reads d.lawful,h.stands.precedence⟩

/-- A range whose step is no literal. -/
theorem reads_back_range :
    let f : Fragment := ⟨"goog.array.range(a, b, stencil.runtime.checkedStep(a - (b - -1)))",.atomic⟩
    let difference : Tree → Tree → Tree := .binary JavaScript.minus
    let t : Tree := .call ["goog","array","range"] [.name ["a"],.name ["b"],
      .call ["stencil","runtime","checkedStep"]
        [difference (.name ["a"]) (difference (.name ["b"]) (.unary JavaScript.negate (.literal 1)))] []] []
    (∃ c : Dialect.javaScript.Configured .ascii .default, Built c f t) ∧
      (∃ ts, JavaScript.language.lex .ascii f.text.toList=some ts ∧
        ∀ u, JavaScript.language.Parses .lowest ts u ↔ u=t) ∧
      f.precedence=t.precedence JavaScript.language := by
  intro f difference t
  let c : Dialect.javaScript.Configured .ascii .default :=
    ⟨["goog","array","range"],["stencil","runtime","checkedStep"],by constructor <;> decide,
      fun _ => by constructor <;> decide⟩
  have a : Built c (.atom "a") (.name ["a"]) := .name (by constructor <;> decide)
  have b : Built c (.atom "b") (.name ["b"]) := .name (by constructor <;> decide)
  have listed : JavaScript.minus∈Dialect.javaScript.binaryOperators := by decide
  have step := Built.binary listed a (.binary listed b (.integer (-1)))
  have built : Built c f t :=
    .basic (.pure .range) (Library.build_standard .default) rfl rfl (.cons a (.cons b (.cons step .nil))) rfl rfl
  exact ⟨⟨c,built⟩,reads_back built⟩

end Dialect.Built

end CallLowering
