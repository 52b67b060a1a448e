import DocComment.Main
import DocComment.Proofs.AnnotationResidue
import DocComment.Proofs.ArrayDeclarator
import DocComment.Proofs.AssignedPath
import DocComment.Proofs.AtRuleFunction
import DocComment.Proofs.BareVariable
import DocComment.Proofs.ClassName
import DocComment.Proofs.ColumnAlignment
import DocComment.Proofs.CommentLines
import DocComment.Proofs.CommentViews
import DocComment.Proofs.ConstructorName
import DocComment.Proofs.FieldSequence
import DocComment.Proofs.FlatAnnotation
import DocComment.Proofs.KindTransition
import DocComment.Proofs.ListConsistency
import DocComment.Proofs.LosslessType
import DocComment.Proofs.MaximalMunch
import DocComment.Proofs.NameFirstFunction
import DocComment.Proofs.PlainLines
import DocComment.Proofs.PropertyKey
import DocComment.Proofs.SettingsLayers
import DocComment.Proofs.SigilFunction
import DocComment.Proofs.Spacing
import DocComment.Proofs.Stages
import DocComment.Proofs.TentativeArrow
import DocComment.Proofs.TypeFirstFunction
import DocComment.Proofs.TypePosition
import DocComment.Proofs.UnambiguousJson
import DocComment.Proofs.Wildcard
import DocComment.Proofs.Delimiters
import DocComment.Proofs.AdjacentWords
