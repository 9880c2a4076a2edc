/-!
# Errors of markup

Why a text is no document.
-/

namespace XmlMapping.Markup

/-- Why a text is no document. -/
inductive Error
  /-- There is no element. -/
  | noElement
  /-- The text ends with elements open. -/
  | unclosedElement
  /-- An end tag does not match the element that it should end. -/
  | mismatchedEndTag
  /-- Something stands where no markup of its kind may. -/
  | misplacedText
  /-- A declaration stands elsewhere than at the start. -/
  | misplacedDeclaration
  /-- There is a document type declaration. -/
  | documentType
  /-- There are more nodes than allowed. -/
  | tooManyNodes
  /-- A name is missing or malformed. -/
  | malformedName
  /-- A character stands in the text that no document may hold. -/
  | forbiddenCharacter
  /-- One given character was expected. -/
  | characterExpected
  /-- A quote or a blank was expected. -/
  | quoteOrBlankExpected
  /-- A given word was expected. -/
  | wordExpected
  /-- A comment holds two hyphens, or ends in one. -/
  | malformedComment
  /-- A text holds the end of a character data section. -/
  | sectionEndInText
  /-- The text ends where something was expected. -/
  | endOfText
  /-- A reference is malformed. -/
  | malformedReference
  /-- A reference names an entity other than the five predefined ones. -/
  | unknownEntity
  /-- An element has two attributes of one name. -/
  | repeatedAttribute
  /-- An element declares a prefix twice. -/
  | repeatedDeclaration
  /-- A prefix is not declared. -/
  | undeclaredPrefix
  /-- The prefix `xml` is declared for another namespace. -/
  | xmlPrefixTaken
  /-- The namespace of the prefix `xml` is declared otherwise. -/
  | xmlNamespaceTaken
  /-- The namespace of declarations is declared. -/
  | xmlnsNamespaceTaken
  /-- An element has the prefix of declarations. -/
  | xmlnsElement
deriving DecidableEq

/-- What a message says of an error. -/
def Error.message : Error → String
  | .noElement => "the document has no element"
  | .unclosedElement => "the document ends within an element"
  | .mismatchedEndTag => "an end tag does not match"
  | .misplacedText => "text or markup is out of place"
  | .misplacedDeclaration => "a declaration is out of place"
  | .documentType => "document type declarations are not allowed"
  | .tooManyNodes => "the document has too many nodes"
  | .malformedName => "a name is missing or malformed"
  | .forbiddenCharacter => "a character is not allowed in documents"
  | .characterExpected => "another character was expected"
  | .quoteOrBlankExpected => "a quote or a blank was expected"
  | .wordExpected => "another word was expected"
  | .malformedComment => "a comment is malformed"
  | .sectionEndInText => "a text holds the end of a character data section"
  | .endOfText => "the document ends too early"
  | .malformedReference => "a reference is malformed"
  | .unknownEntity => "an entity is not known"
  | .repeatedAttribute => "an attribute is given twice"
  | .repeatedDeclaration => "a prefix is declared twice"
  | .undeclaredPrefix => "a prefix is not declared"
  | .xmlPrefixTaken => "the prefix of the XML namespace is declared for another one"
  | .xmlNamespaceTaken => "the XML namespace is declared for another prefix"
  | .xmlnsNamespaceTaken => "the namespace of declarations is declared"
  | .xmlnsElement => "an element has the prefix of declarations"

end XmlMapping.Markup
