import EloquentEntity.Main
import EloquentEntity.Syntax.Missing
import EloquentEntity.Proofs.Casts.OtherClasses
import EloquentEntity.Proofs.Casts.TypeName
import EloquentEntity.Proofs.CommandLine.ExitCode
import EloquentEntity.Proofs.Generate.DryRun
import EloquentEntity.Proofs.Generate.Frame
import EloquentEntity.Proofs.Generate.Isolation
import EloquentEntity.Proofs.Entity.ReadBack
import EloquentEntity.Proofs.Settings.Assignment
import EloquentEntity.Proofs.Casts.SourcePath
import EloquentEntity.Proofs.Generate.ModelFile
import EloquentEntity.Proofs.Generate.Regeneration
import EloquentEntity.Proofs.Settings.OutputPath
import EloquentEntity.Proofs.Imports.NoClass
import EloquentEntity.Proofs.Casts.ClassSpelling
import EloquentEntity.Proofs.Entity.UseBlock
import EloquentEntity.Proofs.Casts.WrittenClass
import EloquentEntity.Proofs.Imports.Separate
import EloquentEntity.Proofs.Syntax.Insertion
import EloquentEntity.Proofs.Files.Trial
import EloquentEntity.Proofs.Casts.Merging
import EloquentEntity.Proofs.Syntax.QuotedToken
import EloquentEntity.Proofs.Casts.Memory
import EloquentEntity.Proofs.Settings.Identifiers
import EloquentEntity.Proofs.Naming
import EloquentEntity.Proofs.Database.Choice
import EloquentEntity.Proofs.Casts.Keyword
import EloquentEntity.Proofs.Imports.Shape
import EloquentEntity.Proofs.Syntax.Search
