/-!
# Names in markup

Which properties of an instance become attributes, and under which names, which become the content of its element, and
which are never written.
-/

namespace Prebake.Markup

/-- The elements that have no end tag. -/
def voidElements : List String :=
  ["area", "base", "br", "col", "embed", "hr", "img", "input", "link", "meta", "param", "source", "track", "wbr"]

/-- Whether an element has no end tag; the case of ASCII letters does not matter. -/
def isVoidElement (tag : String) : Bool := voidElements.contains (String.ofList (tag.toList.map Char.toLower))

/-- The properties whose attributes have another name. -/
def renamedAttributes : List (String × String) :=
  [("className", "class"), ("htmlFor", "for"), ("tabIndex", "tabindex"), ("readOnly", "readonly"),
    ("maxLength", "maxlength"), ("minLength", "minlength"), ("autoComplete", "autocomplete"),
    ("autoFocus", "autofocus"), ("autoPlay", "autoplay"), ("colSpan", "colspan"), ("rowSpan", "rowspan"),
    ("contentEditable", "contenteditable"), ("crossOrigin", "crossorigin"), ("encType", "enctype"),
    ("noValidate", "novalidate"), ("spellCheck", "spellcheck"), ("srcSet", "srcset"),
    ("acceptCharset", "accept-charset"), ("httpEquiv", "http-equiv")]

/-- The name of the attribute of a property. -/
def attributeName (property : String) : String := (renamedAttributes.lookup property).getD property

/-- Whether a property is written as the content of its element. -/
def isContent (property : String) : Bool := property == "children" || property == "text"

/-- Whether a text is `on` and a capital ASCII letter, and perhaps more. -/
def isHandlerName : List Char → Bool
  | 'o' :: 'n' :: c :: _ => c.isUpper
  | _ => false

/-- Whether a property is neither evaluated nor written. -/
def isSkipped (property : String) : Bool :=
  property == "key" || property == "ref" || isHandlerName property.toList

end Prebake.Markup
