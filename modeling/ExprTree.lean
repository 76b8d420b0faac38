import ExprTree.Bodies
import ExprTree.Canon.Simplify
import ExprTree.Eval.Partial
import ExprTree.Eval.Rules
import ExprTree.Eval.Settings
import ExprTree.Eval.ShapeText
import ExprTree.Proofs.CachedQuotes
import ExprTree.Proofs.Closures
import ExprTree.Proofs.Compilation
import ExprTree.Proofs.Folding
import ExprTree.Proofs.ShapeKeys
import ExprTree.Proofs.Substitution
import ExprTree.Proofs.Placeholders
import ExprTree.Proofs.Alignment
import ExprTree.Proofs.Reassembly
import ExprTree.Proofs.ExtractedMeaning
import ExprTree.Proofs.Expansion
import ExprTree.Proofs.OverrideTables
import ExprTree.Proofs.Failures
import ExprTree.Proofs.Invariants
import ExprTree.Proofs.ClosedPrograms
import ExprTree.Proofs.EvaluatorInvariants
import ExprTree.Proofs.CacheInvariants
import ExprTree.Proofs.Isolation
import ExprTree.Proofs.Successes
import ExprTree.Proofs.ShortCircuits
import ExprTree.Proofs.Simplification
import ExprTree.Proofs.SubstitutedMeaning
import ExprTree.Proofs.SubstitutedTypes
import ExprTree.Proofs.LinkedMembers
import ExprTree.Proofs.ParameterLists
import ExprTree.Proofs.Compilability
import ExprTree.Proofs.Conversions
import ExprTree.Proofs.NormalForms
import ExprTree.Proofs.FailureSites
import ExprTree.Proofs.BoxedValues
import ExprTree.Proofs.IntegralConversions
import ExprTree.Proofs.IntegerOperators
import ExprTree.Proofs.EnumValues
import ExprTree.Proofs.Assignability
import ExprTree.Proofs.NativeValues
import ExprTree.Proofs.ExpansionLimits
import ExprTree.Proofs.Children
