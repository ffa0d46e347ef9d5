import StyledText.Element.Basic
import StyledText.Theme.Builtin
import StyledText.Proofs.Shortcode.Builtin
import StyledText.Proofs.Terminal.Settling

/-!
# Elements are drawn

With the built-in tags every element whose texts are plain is drawn, so it leaves no style on
behind it. A heading and the label of a rule stay drawn when they are cut to fit. What a run, an
alert, a heading or a link shows is laid out by the visible text alone.
-/
namespace StyledText

open Style Escape

/-- The texts of the element hold no ESC and no BEL, and its rule is drawn with neither. -/
def Element.Plain (c : Context) : Element → Prop
  | .run r => Escape.Plain r.value ∧ ∀ address ∈ r.link, Escape.Plain address
  | .alert a => Escape.Plain a.value
  | .heading h => Escape.Plain h.value
  | .rule r => Escape.Plain r.label ∧ Escape.Plain [r.mark c]
  | .link l => Escape.Plain l.text ∧ Escape.Plain l.address

def Frame.characters (f : Frame) : Text :=
  [f.topLeft, f.topRight, f.bottomLeft, f.bottomRight, f.horizontal, f.vertical]

/-- A frame around a drawn text is drawn, also where it cuts the text. -/
theorem Frame.drawn_around {f : Frame} (plain : Plain f.characters) {value visible : Text}
    (h : Drawn value visible) (width : ℕ) :
    Drawn (f.around value width) (f.around visible width) := by
  have one {d : Char} (mem : d ∈ f.characters) : Plain [d] := plain.mono (by simpa using mem)
  have line (n : ℕ) : Plain (List.replicate n f.horizontal) :=
    plain_replicate (one (by simp [characters])) n
  have vertical : Plain [f.vertical] := one (by simp [characters])
  have edge {left right : Char} (first : left ∈ f.characters) (last : right ∈ f.characters) :
      Plain (f.edge (width - 2) left right) :=
    ((one first).append (line (width - 2))).append (one last)
  have top : Plain (f.edge (width - 2) f.topLeft f.topRight) :=
    edge (by simp [characters]) (by simp [characters])
  have bottom : Plain (f.edge (width - 2) f.bottomLeft f.bottomRight) :=
    edge (by simp [characters]) (by simp [characters])
  have shown := h.truncate (width - 2)
  have fill := plain_spaces (width - 2 - visibleWidth (Escape.truncate (width - 2) visible))
  have around := shown.inside (top.append (plain_newline.append vertical))
    (fill.append (vertical.append (plain_newline.append bottom)))
  rw [Frame.around, Frame.around, shown.visibleWidth_eq]
  simpa using around

/-! ### What elements show -/

/-- What a reader sees of expanded text. -/
def Context.shown (c : Context) (text : Text) : Text :=
  Markup.expand Shortcode.spacingOnly c.theme text

def Run.shown (r : Run) (c : Context) : Text :=
  let content := c.shown r.value
  let sides := inner r.attributes c content.length
  let row := Layout.pad (Layout.pad content sides.1 sides.2)
    (spacing c.theme r.attributes.marginLeft "margin-left")
    (spacing c.theme r.attributes.marginRight "margin-right")
  match display c.theme r.attributes with
  | .block => row ++ ['\n']
  | .inline => row

def Alert.shown (a : Alert) (c : Context) : Text :=
  (a.filler c).shown c ++ (a.body c).shown c ++ (a.filler c).shown c

/-- A heading shows its frame, if its size has one. -/
def Heading.shownShape (size : ℕ) (value : Text) (width : ℕ) : Text :=
  match size with
  | 1 => Frame.double.around value width
  | 2 => Frame.single.around value width
  | _ => value

def Heading.shown (h : Heading) (c : Context) : Text :=
  shownShape (h.effectiveSize c) (c.shown h.value) c.width ++
    '\n' :: List.replicate (blankLines c) '\n'

def Link.shown (l : Link) (c : Context) : Text := l.run.shown c

section
variable {c : Context} (tags : c.shortcodes.registry = Shortcode.builtin)
include tags

theorem Context.drawn_expand {text : Text} (plain : Plain text) :
    Drawn (c.expand text) (c.shown text) := by
  have drawn := Shortcode.drawn_expand c.theme plain
  rw [Context.expand, Shortcodes.expand, tags]
  exact drawn

theorem Run.drawn_content {r : Run} (h : (Element.run r).Plain c) :
    Drawn (r.content c) (c.shown r.value) := by
  have inner := Context.drawn_expand tags h.1
  rw [Run.content]
  split
  · next address linked => exact inner.hyperlink (h.2 address linked)
  · exact inner

theorem Run.drawn_shown {r : Run} (h : (Element.run r).Plain c) :
    Drawn (r.render c) (r.shown c) := by
  have content := Run.drawn_content tags h
  rw [Run.render, Run.shown]
  simp only [content.visibleWidth_eq_length]
  generalize inner r.attributes c (c.shown r.value).length = sides
  obtain ⟨left, right⟩ := sides
  have row (marginLeft marginRight : ℕ) :=
    ((content.pad left right).paint (c.theme.resolveColors r.attributes)).pad marginLeft marginRight
  cases display c.theme r.attributes with
  | block => exact (row _ _).append (.plain plain_newline)
  | inline => exact row _ _

theorem Alert.drawn_shown {a : Alert} (h : Plain a.value) : Drawn (a.render c) (a.shown c) := by
  have unlinked : ∀ address ∈ (none : Option Text), Plain address := by simp
  have filler := Run.drawn_shown tags (r := a.filler c) ⟨plain_nil, unlinked⟩
  have body := Run.drawn_shown tags (r := a.body c) ⟨h, unlinked⟩
  exact (filler.append body).append filler

theorem Heading.drawn_shown {h : Heading} (plain : Plain h.value) :
    Drawn (h.render c) (h.shown c) := by
  have expanded := Context.drawn_expand tags plain
  have shaped : Drawn (shape (h.effectiveSize c) (c.expand h.value) c.width)
      (shownShape (h.effectiveSize c) (c.shown h.value) c.width) := by
    generalize h.effectiveSize c = size
    rw [Heading.shape.eq_def]
    split
    · have framed := Frame.drawn_around (f := Frame.double) ⟨by decide, by decide⟩ expanded c.width
      exact framed.decorate .bold
    · have framed := Frame.drawn_around (f := Frame.single) ⟨by decide, by decide⟩ expanded c.width
      exact framed.decorate .bold
    · exact expanded.decorate .bold
    · exact expanded.decorate .bold
    · next double single _ _ =>
      rw [shownShape.eq_3 _ _ _ double single]
      exact expanded.decorate .dim
  have lines : Plain ('\n' :: List.replicate (blankLines c) '\n') :=
    plain_newline.append (plain_replicate plain_newline _)
  rw [Heading.render, Heading.colored, Heading.shown]
  split
  · exact (shaped.paint _).append (.plain lines)
  · exact shaped.append (.plain lines)

theorem Rule.drawn_render {r : Rule} (label : Plain r.label) (mark : Plain [r.mark c]) :
    ∃ visible, Drawn (r.render c) visible := by
  have expanded := Context.drawn_expand tags label
  have line (n : ℕ) := plain_replicate mark n
  rw [Rule.render]
  simp only
  split
  · exact ⟨_, .plain ((line (r.columns c)).append plain_newline)⟩
  · have space : Plain [' '] := plain_spaces 1
    have shown := expanded.truncate (r.columns c - (Rule.inset + 2))
    generalize Layout.padding _ _ _ _ = sides
    obtain ⟨left, right⟩ := sides
    have labelled :=
      shown.inside ((line left).append space) ((space.append (line right)).append plain_newline)
    simp only [List.append_assoc, List.cons_append] at labelled ⊢
    exact ⟨_, labelled⟩

theorem Link.drawn_shown {l : Link} (text : Plain l.text) (address : Plain l.address) :
    Drawn (l.render c) (l.shown c) := by
  refine Run.drawn_shown tags ⟨?_, ?_⟩
  · rw [Link.run]
    simp only
    split
    · exact address.mono (Markup.escape_subset l.address)
    · exact text
  · simpa [Link.run] using address

theorem Element.drawn_render {e : Element} (h : e.Plain c) :
    ∃ visible, Drawn (e.render c) visible := by
  cases e with
  | run r => exact ⟨_, Run.drawn_shown tags h⟩
  | alert a => exact ⟨_, Alert.drawn_shown tags h⟩
  | heading title => exact ⟨_, Heading.drawn_shown tags h⟩
  | rule r => exact Rule.drawn_render tags h.1 h.2
  | link l => exact ⟨_, Link.drawn_shown tags h.1 h.2⟩

end

/-- Under every theme and in every width, what the built-in tags make of a plain text leaves no
style on behind it, and neither does an element whose texts are plain. -/
theorem settles_render (c : Context) (tags : c.shortcodes.registry = Shortcode.builtin) :
    (∀ text, Plain text → Terminal.Settles (c.shortcodes.expand text)) ∧
      ∀ e : Element, e.Plain c → Terminal.Settles (e.render c) := by
  constructor
  · intro text plain
    exact Terminal.settles_of_drawn (Context.drawn_expand tags plain)
  · intro e plain
    obtain ⟨visible, drawn⟩ := Element.drawn_render tags plain
    exact Terminal.settles_of_drawn drawn

/-- A color that is still on where the heading is cut, and a link that a decoration ends in. -/
theorem settles_render_cut :
    Terminal.Settles (Shortcodes.expand { theme := Theme.builtin }
        "[b][a=\"x\"]A[/b]B[/a]".toList) ∧
      Terminal.Settles (Element.render
        (.heading { value := "[color=red]too long[/color]".toList, size := some 1 })
        { shortcodes := { theme := Theme.builtin }, fixedWidth := some 5 }) := by
  let c : Context := { shortcodes := { theme := Theme.builtin }, fixedWidth := some 5 }
  have settled := settles_render c rfl
  exact ⟨settled.1 _ ⟨by decide, by decide⟩, settled.2 (.heading _) ⟨by decide, by decide⟩⟩

end StyledText
