import DataAccess.Proofs.Document.Refinement
import DataAccess.Proofs.KeyValue.Refinement

namespace DataAccess

/-- From an empty store on, each request gets the answer of the map, whatever the storage is called,
however ids are made up, and whether or not `create` runs in a transaction. -/
theorem stores_answer_like_map (requests : List Request) (storage : String) (declared : ColumnUse)
    (config : DaoConfig) (ids : Document.IdSupply) (stores : StoreConfig)
    (surroundings : Surroundings) :
    (DocumentDao.keyed storage declared config).operations.answers Document.connection storage
        requests { store := { ids, config := stores }, surroundings } =
      Registry.answers requests ∅ ∧
    (KeyValueDao.keyed config).operations.answers KeyValue.connection storage requests
        { store := ({ config := stores } : KeyValue.Store).createTable storage
            { partitionKey := "id" }
          surroundings } =
      Registry.answers requests ∅ :=
  ⟨Dao.answers_eq (DocumentDao.refines storage declared config) requests
      (DocumentDao.represents_fresh storage ids stores),
    Dao.answers_eq (KeyValueDao.refines config storage) requests
      (KeyValueDao.represents_fresh storage stores)⟩

end DataAccess
