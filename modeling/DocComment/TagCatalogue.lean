import DocComment.Language.Basic

/-!
The tags an editor offers inside a comment: a few that every language has, and those of the
documentation tool that goes with a language. Bodies are snippets.
-/

namespace DocComment

structure Tag where
  label : String
  detail : String
  snippet : String
  deriving DecidableEq, Repr, Inhabited

namespace Tag

def shared : List Tag :=
  [⟨"@param", "Documents a parameter",
    "@param $\x7b1:type\x7d $\x7b2:name\x7d $\x7b3:description\x7d"⟩,
   ⟨"@return", "Documents the return value", "@return $\x7b1:type\x7d $\x7b2:description\x7d"⟩,
   ⟨"@throws", "Documents a thrown exception", "@throws $\x7b1:type\x7d $\x7b2:description\x7d"⟩,
   ⟨"@deprecated", "Marks as deprecated", "@deprecated $\x7b1:description\x7d"⟩,
   ⟨"@see", "Refers to related documentation", "@see $\x7b1:reference\x7d"⟩,
   ⟨"@since", "Version the element was added in", "@since $\x7b1:version\x7d"⟩,
   ⟨"@author", "Names the author", "@author $\x7b1:name\x7d <$\x7b2:email\x7d>"⟩,
   ⟨"@todo", "Work still to be done", "@todo $\x7b1:description\x7d"⟩,
   ⟨"@example", "Usage example", "@example $\x7b1:code\x7d"⟩]

def ofLanguage : Language → List Tag
  | .c =>
      [⟨"@brief", "Short description", "@brief $\x7b1:description\x7d"⟩,
       ⟨"@details", "Long description", "@details $\x7b1:description\x7d"⟩,
       ⟨"@file", "Documents the file", "@file $\x7b1:name\x7d"⟩,
       ⟨"@struct", "Documents a struct", "@struct $\x7b1:name\x7d"⟩,
       ⟨"@retval", "Documents a specific return value",
        "@retval $\x7b1:value\x7d $\x7b2:description\x7d"⟩,
       ⟨"@note", "Note", "@note $\x7b1:text\x7d"⟩,
       ⟨"@warning", "Warning", "@warning $\x7b1:text\x7d"⟩]
  | .java =>
      [⟨"@exception", "Documents a thrown exception",
        "@exception $\x7b1:type\x7d $\x7b2:description\x7d"⟩,
       ⟨"@version", "Current version", "@version $\x7b1:version\x7d"⟩,
       ⟨"@serial", "Serializable field", "@serial $\x7b1:description\x7d"⟩,
       ⟨"\x7b@link\x7d", "Inline link", "\x7b@link $\x7b1:reference\x7d\\\x7d"⟩,
       ⟨"\x7b@code\x7d", "Inline code", "\x7b@code $\x7b1:code\x7d\\\x7d"⟩,
       ⟨"\x7b@inheritDoc\x7d", "Inherit documentation", "\x7b@inheritDoc\\\x7d"⟩]
  | .javascript =>
      [⟨"@type", "Type of a variable or property", "@type \x7b$\x7b1:type\x7d\x7d"⟩,
       ⟨"@typedef", "Defines a custom type", "@typedef \x7b$\x7b1:type\x7d\x7d $\x7b2:name\x7d"⟩,
       ⟨"@callback", "Defines a callback type", "@callback $\x7b1:name\x7d"⟩,
       ⟨"@async", "Function is asynchronous", "@async"⟩,
       ⟨"@class", "Function is a constructor", "@class"⟩,
       ⟨"@extends", "Parent class", "@extends $\x7b1:parent\x7d"⟩,
       ⟨"@template", "Generic type parameter", "@template $\x7b1:T\x7d"⟩,
       ⟨"@private", "Private member", "@private"⟩,
       ⟨"@readonly", "Read-only member", "@readonly"⟩]
  | .php =>
      [⟨"@var", "Type of a variable or property", "@var $\x7b1:type\x7d"⟩,
       ⟨"@property", "Magic property", "@property $\x7b1:type\x7d \\$$\x7b2:name\x7d"⟩,
       ⟨"@method", "Magic method", "@method $\x7b1:type\x7d $\x7b2:name\x7d($\x7b3\x7d)"⟩,
       ⟨"@package", "Package the element belongs to", "@package $\x7b1:name\x7d"⟩,
       ⟨"@inheritDoc", "Inherit documentation", "@inheritDoc"⟩,
       ⟨"@internal", "Not part of the public API", "@internal"⟩,
       ⟨"@link", "External link", "@link $\x7b1:url\x7d"⟩]
  | .scss =>
      [⟨"@type", "Type of a variable", "@type $\x7b1:type\x7d"⟩,
       ⟨"@group", "Group the item belongs to", "@group $\x7b1:name\x7d"⟩,
       ⟨"@content", "Mixin accepts a content block", "@content $\x7b1:description\x7d"⟩,
       ⟨"@output", "CSS the mixin outputs", "@output $\x7b1:description\x7d"⟩,
       ⟨"@requires", "Dependency on another item", "@requires $\x7b1:name\x7d"⟩,
       ⟨"@access", "Access level", "@access $\x7b1|public,private|\x7d"⟩,
       ⟨"@alias", "Alias of another item", "@alias $\x7b1:name\x7d"⟩]

end Tag

/-- The tags offered for a language, the shared ones first. -/
def Language.tags (language : Language) : List Tag := Tag.shared ++ Tag.ofLanguage language

end DocComment
