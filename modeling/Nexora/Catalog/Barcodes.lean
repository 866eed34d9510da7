import Nexora.Core.Context
import Nexora.Foundations.CanonicalJson
import Nexora.Foundations.Decimal
import Nexora.Foundations.RowServices

/-!
# Products, variants and barcodes

`create_product`, `update_product`, `deactivate_product`, `add_variant`, `add_barcode` and
`resolve_barcode` of `app/modules/catalog/service.py`.  A product is created with a default variant of its
SKU.  A barcode names a product, and maybe a variant of it.

No request deletes a row, and none changes a SKU or a barcode: what a barcode was once scanned as it is
scanned as from then on (`scans_follow`), and there is always a product to answer (`catalog_sound`).
-/

namespace Nexora.Catalog.Barcodes

open Nexora Foundations

/-! ## Tables -/

/-- A row of `products`.  Amounts that may not be negative are `ℕ`, in the units of their columns. -/
structure ProductRow where
  id : Uuid
  sku : String
  name : String
  description : Option String
  categoryId : Option Uuid
  brandId : Option Uuid
  uomId : Uuid
  taxCategoryId : Option Uuid
  costPrice : ℕ
  sellingPrice : ℕ
  reorderPoint : Option ℕ
  isStockTracked : Bool
  isActive : Bool

/-- `ProductVariant`. -/
structure ProductVariant where
  id : Uuid
  productId : Uuid
  sku : String
  name : String
  attributes : List (String × Json)
  isActive : Bool

/-- `ProductBarcode`. -/
structure ProductBarcode where
  id : Uuid
  productId : Uuid
  productVariantId : Option Uuid
  barcode : String
  isPrimary : Bool

structure CatalogDb where
  products : Table ProductRow.id
  variants : Table ProductVariant.id
  barcodes : Table ProductBarcode.id

def CatalogDb.empty : CatalogDb := ⟨.empty _, .empty _, .empty _⟩

/-- Which categories, brands, units and tax categories there are. -/
structure Links where
  category : Uuid → Bool
  brand : Uuid → Bool
  unit : Uuid → Bool
  taxCategory : Uuid → Bool

/-! ## Payloads -/

/-- `ProductCreate`. -/
structure ProductCreate where
  sku : String
  name : String
  description : Option String
  categoryId : Option Uuid
  brandId : Option Uuid
  uomId : Uuid
  taxCategoryId : Option Uuid
  sellingPrice : ℚ≥0
  reorderPoint : Option ℚ≥0
  isStockTracked : Bool

/-- A field of an update: not set, set to `null`, or set. -/
abbrev Change (α : Type) := Option (Option α)

/-- `ProductUpdate`. -/
structure ProductUpdate where
  name : Change String
  description : Change String
  categoryId : Change Uuid
  brandId : Change Uuid
  uomId : Change Uuid
  taxCategoryId : Change Uuid
  sellingPrice : Change ℚ≥0
  costPrice : Change ℚ≥0
  reorderPoint : Change ℚ≥0
  isStockTracked : Change Bool
  isActive : Change Bool

/-- `VariantCreate`. -/
structure VariantCreate where
  sku : String
  name : String
  attributes : List (String × Json)

/-- `BarcodeCreate`. -/
structure BarcodeCreate where
  barcode : String
  productVariantId : Option Uuid
  isPrimary : Bool

/-! ## Requests -/

/-- A decimal in a column `NUMERIC(precision, scale)`. -/
def storeDecimal (precision scale : ℕ) (amount : ℚ≥0) : Except Err ℕ :=
  orRaise (.outOfRange s!"NUMERIC({precision},{scale})") ((numeric precision scale amount).map Int.toNat)

/-- A value that is not required, if there is one. -/
def storeOptional (precision scale : ℕ) : Option ℚ≥0 → Except Err (Option ℕ)
  | none => .ok none
  | some amount => do
      let stored ← storeDecimal precision scale amount
      .ok (some stored)

/-- A column that is `NOT NULL`. -/
def Change.required {α : Type} (change : Change α) (column : String) (old : α) : Except Err α :=
  match change with
  | none => .ok old
  | some none => .error (.integrity column)
  | some (some new) => .ok new

/-- `selling_price`. -/
def Change.storePrice (change : Change ℚ≥0) (old : ℕ) : Except Err ℕ :=
  match change with
  | none => .ok old
  | some none => .error (.integrity "selling_price")
  | some (some amount) => storeDecimal 18 4 amount

/-- `reorder_point`, which may be `null`. -/
def Change.storePoint (change : Change ℚ≥0) (old : Option ℕ) : Except Err (Option ℕ) :=
  match change with
  | none => .ok old
  | some amount => storeOptional 20 6 amount

/-- `_validate_product_links`. -/
def validateProductLinks (links : Links) (categoryId brandId uomId taxCategoryId : Option Uuid) :
    Except Err Unit :=
  if categoryId.all links.category ∧ brandId.all links.brand ∧ uomId.all links.unit ∧
      taxCategoryId.all links.taxCategory then .ok ()
  else .error .notFound

def skuDuplicate (message : String) : Err := .conflict "SKU_DUPLICATE" message

namespace CatalogDb

/-- A product with a SKU that no other has. -/
def insertProduct (db : CatalogDb) (product : ProductRow) : Except Err CatalogDb :=
  if product.sku ∈ db.products.rows.map (·.sku) then
    .error (skuDuplicate "Product or variant SKU already exists.")
  else do
    let products ← orRaise (skuDuplicate "Product or variant SKU already exists.")
      (db.products.insert product)
    .ok { db with products := products }

/-- A variant of a product that is there. -/
def insertVariant (db : CatalogDb) (variant : ProductVariant) (message : String) : Except Err CatalogDb :=
  if (db.products.get variant.productId).isNone then .error (skuDuplicate message)
  else if variant.sku ∈ db.variants.rows.map (·.sku) then .error (skuDuplicate message)
  else do
    let variants ← orRaise (skuDuplicate message) (db.variants.insert variant)
    .ok { db with variants := variants }

/-- `create_product`. -/
def createProduct (db : CatalogDb) (links : Links) (payload : ProductCreate) (id variantId : Uuid) :
    Except Err CatalogDb := do
  validateProductLinks links payload.categoryId payload.brandId (some payload.uomId) payload.taxCategoryId
  let sellingPrice ← storeDecimal 18 4 payload.sellingPrice
  let reorderPoint ← storeOptional 20 6 payload.reorderPoint
  let db ← db.insertProduct
    { id := id
      sku := payload.sku
      name := payload.name
      description := payload.description
      categoryId := payload.categoryId
      brandId := payload.brandId
      uomId := payload.uomId
      taxCategoryId := payload.taxCategoryId
      costPrice := 0
      sellingPrice := sellingPrice
      reorderPoint := reorderPoint
      isStockTracked := payload.isStockTracked
      isActive := true }
  db.insertVariant ⟨variantId, id, payload.sku, "Default", [], true⟩ "Product or variant SKU already exists."

/-- `update_product`. -/
def updateProduct (db : CatalogDb) (links : Links) (productId : Uuid) (payload : ProductUpdate) :
    Except Err CatalogDb :=
  if payload.costPrice.isSome then
    .error (.conflict "INVALID_STATE_TRANSITION" "Product cost is maintained only by inventory receipt logic.")
  else do
    let product ← orRaise .notFound (db.products.get productId)
    validateProductLinks links payload.categoryId.join payload.brandId.join payload.uomId.join
      payload.taxCategoryId.join
    let name ← payload.name.required "name" product.name
    let uomId ← payload.uomId.required "uom_id" product.uomId
    let sellingPrice ← payload.sellingPrice.storePrice product.sellingPrice
    let reorderPoint ← payload.reorderPoint.storePoint product.reorderPoint
    let isStockTracked ← payload.isStockTracked.required "is_stock_tracked" product.isStockTracked
    let isActive ← payload.isActive.required "is_active" product.isActive
    let products ← orRaise (.integrity "pk_products")
      (db.products.replace product.id
        { product with
          name := name
          description := payload.description.getD product.description
          categoryId := payload.categoryId.getD product.categoryId
          brandId := payload.brandId.getD product.brandId
          uomId := uomId
          taxCategoryId := payload.taxCategoryId.getD product.taxCategoryId
          sellingPrice := sellingPrice
          reorderPoint := reorderPoint
          isStockTracked := isStockTracked
          isActive := isActive })
    .ok { db with products := products }

/-- `deactivate_product`, of a product that has moved or not. -/
def deactivateProduct (db : CatalogDb) (productId : Uuid) (hasMovements : Bool) : Except Err CatalogDb := do
  let product ← orRaise .notFound (db.products.get productId)
  if hasMovements then
    .error (.conflict "RESOURCE_IN_USE" "Products with inventory movements cannot be deleted.")
  else
    let products ← orRaise (.integrity "pk_products")
      (db.products.replace product.id { product with isActive := false })
    .ok { db with products := products }

/-- `add_variant`. -/
def addVariant (db : CatalogDb) (productId : Uuid) (payload : VariantCreate) (id : Uuid) :
    Except Err CatalogDb := do
  let product ← orRaise .notFound (db.products.get productId)
  db.insertVariant ⟨id, product.id, payload.sku, payload.name, payload.attributes, true⟩
    "Variant SKU already exists."

/-- The variant that a barcode names is one of the product. -/
def requireVariantOf (db : CatalogDb) (productId : Uuid) : Option Uuid → Except Err Unit
  | none => .ok ()
  | some variantId => do
      let variant ← orRaise .notFound (db.variants.get variantId)
      if variant.productId = productId then .ok () else .error .notFound

/-- `add_barcode`. -/
def addBarcode (db : CatalogDb) (productId : Uuid) (payload : BarcodeCreate) (id : Uuid) :
    Except Err CatalogDb := do
  let product ← orRaise .notFound (db.products.get productId)
  db.requireVariantOf product.id payload.productVariantId
  if payload.barcode ∈ db.barcodes.rows.map (·.barcode) then
    .error (.conflict "BARCODE_DUPLICATE" "Barcode already exists.")
  else
    let barcodes ← orRaise (.conflict "BARCODE_DUPLICATE" "Barcode already exists.")
      (db.barcodes.insert ⟨id, product.id, payload.productVariantId, payload.barcode, payload.isPrimary⟩)
    .ok { db with barcodes := barcodes }

/-- `resolve_barcode`. -/
def resolveBarcode (db : CatalogDb) (value : String) : Except Err (ProductRow × ProductBarcode) := do
  let barcode ← orRaise .notFound (db.barcodes.rows.find? (·.barcode = value))
  let product ← orRaise .notFound (db.products.get barcode.productId)
  .ok (product, barcode)

end CatalogDb

inductive CatalogRequest where
  | createProduct (links : Links) (payload : ProductCreate) (id variantId : Uuid)
  | updateProduct (links : Links) (productId : Uuid) (payload : ProductUpdate)
  | deactivateProduct (productId : Uuid) (hasMovements : Bool)
  | addVariant (productId : Uuid) (payload : VariantCreate) (id : Uuid)
  | addBarcode (productId : Uuid) (payload : BarcodeCreate) (id : Uuid)

/-- The product that is read `FOR UPDATE`. -/
def CatalogRequest.rows : CatalogRequest → List Uuid
  | updateProduct _ productId _ | deactivateProduct productId _ => [productId]
  | createProduct .. | addVariant .. | addBarcode .. => []

def CatalogRequest.perform (db : CatalogDb) : CatalogRequest → Except Err CatalogDb
  | createProduct links payload id variantId => db.createProduct links payload id variantId
  | updateProduct links productId payload => db.updateProduct links productId payload
  | deactivateProduct productId hasMovements => db.deactivateProduct productId hasMovements
  | addVariant productId payload id => db.addVariant productId payload id
  | addBarcode productId payload id => db.addBarcode productId payload id

def catalogService : RowService CatalogDb CatalogRequest Uuid ProductRow where
  rows := CatalogRequest.rows
  read db := db.products.get
  row := ProductRow.id
  see db product := { db with products := (db.products.replace product.id product).getD db.products }
  body db request := (request.perform db).toOption

/-! ## What a request writes -/

/-- A product keeps its SKU, and its cost, which the catalog leaves to the receipts. -/
structure ProductBecomes (product product' : ProductRow) : Prop where
  sku : product'.sku = product.sku
  costPrice : product'.costPrice = product.costPrice

theorem ProductBecomes.refl (product : ProductRow) : ProductBecomes product product := ⟨rfl, rfl⟩

theorem ProductBecomes.trans {p p' p'' : ProductRow} (h : ProductBecomes p p') (h' : ProductBecomes p' p'') :
    ProductBecomes p p'' :=
  ⟨h'.sku.trans h.sku, h'.costPrice.trans h.costPrice⟩

/-- What a request makes of the tables, that holds some products. -/
inductive Step (db : CatalogDb) (rows : List Uuid) : CatalogDb → Prop
  | productCreated {product : ProductRow} {variant : ProductVariant} {products : Table ProductRow.id}
      {variants : Table ProductVariant.id} (hsku : product.sku ∉ db.products.rows.map (·.sku))
      (hproduct : db.products.insert product = some products) (hof : variant.productId = product.id)
      (hdefault : variant.sku = product.sku) (hfresh : variant.sku ∉ db.variants.rows.map (·.sku))
      (hvariant : db.variants.insert variant = some variants) :
      Step db rows { db with products := products, variants := variants }
  | productSaved {product product' : ProductRow} {products : Table ProductRow.id}
      (hget : db.products.get product.id = some product) (hrow : product.id ∈ rows)
      (hid : product'.id = product.id) (hbecomes : ProductBecomes product product')
      (hsave : db.products.replace product.id product' = some products) :
      Step db rows { db with products := products }
  | variantAdded {variant : ProductVariant} {variants : Table ProductVariant.id}
      (hproduct : (db.products.get variant.productId).isSome)
      (hfresh : variant.sku ∉ db.variants.rows.map (·.sku))
      (hinsert : db.variants.insert variant = some variants) : Step db rows { db with variants := variants }
  | barcodeAdded {barcode : ProductBarcode} {barcodes : Table ProductBarcode.id}
      (hproduct : (db.products.get barcode.productId).isSome)
      (hvariant : ∀ id ∈ barcode.productVariantId, ∃ variant, db.variants.get id = some variant ∧
        variant.productId = barcode.productId)
      (hfresh : barcode.barcode ∉ db.barcodes.rows.map (·.barcode))
      (hinsert : db.barcodes.insert barcode = some barcodes) : Step db rows { db with barcodes := barcodes }

variable {db db' : CatalogDb} {rows : List Uuid} {request : CatalogRequest}

theorem insertProduct_eq_ok {product : ProductRow} (h : db.insertProduct product = .ok db') :
    product.sku ∉ db.products.rows.map (·.sku) ∧ ∃ products, db.products.insert product = some products ∧
      db' = { db with products := products } := by
  obtain ⟨hsku, h⟩ := ite_error_eq_ok.mp h
  obtain ⟨products, hinsert, h⟩ := bind_eq_ok.mp h
  cases h
  exact ⟨hsku, products, orRaise_eq_ok.mp hinsert, rfl⟩

theorem insertVariant_eq_ok {variant : ProductVariant} {message : String}
    (h : db.insertVariant variant message = .ok db') :
    variant.sku ∉ db.variants.rows.map (·.sku) ∧ ∃ variants, db.variants.insert variant = some variants ∧
      db' = { db with variants := variants } := by
  obtain ⟨-, h⟩ := ite_error_eq_ok.mp h
  obtain ⟨hsku, h⟩ := ite_error_eq_ok.mp h
  obtain ⟨variants, hinsert, h⟩ := bind_eq_ok.mp h
  cases h
  exact ⟨hsku, variants, orRaise_eq_ok.mp hinsert, rfl⟩

theorem requireVariantOf_eq_ok {productId : Uuid} {variantId : Option Uuid}
    (h : db.requireVariantOf productId variantId = .ok ()) :
    ∀ id ∈ variantId, ∃ variant, db.variants.get id = some variant ∧ variant.productId = productId := by
  rintro id rfl
  obtain ⟨variant, hget, h⟩ := bind_eq_ok.mp h
  refine ⟨variant, orRaise_eq_ok.mp hget, ?_⟩
  split at h
  next hof => exact hof
  next => cases h

theorem createProduct_step {links : Links} {payload : ProductCreate} {id variantId : Uuid}
    (h : db.createProduct links payload id variantId = .ok db') : Step db rows db' := by
  obtain ⟨_, -, h⟩ := bind_eq_ok.mp h
  obtain ⟨sellingPrice, -, h⟩ := bind_eq_ok.mp h
  obtain ⟨reorderPoint, -, h⟩ := bind_eq_ok.mp h
  obtain ⟨db₁, hproduct, hvariant⟩ := bind_eq_ok.mp h
  obtain ⟨hsku, products, hinsert, rfl⟩ := insertProduct_eq_ok hproduct
  obtain ⟨hfresh, variants, hinsert', rfl⟩ := insertVariant_eq_ok hvariant
  refine .productCreated hsku hinsert ?_ ?_ hfresh hinsert'
  · rfl
  · rfl

theorem updateProduct_step {links : Links} {productId : Uuid} {payload : ProductUpdate}
    (hrow : productId ∈ rows) (h : db.updateProduct links productId payload = .ok db') : Step db rows db' := by
  obtain ⟨-, h⟩ := ite_error_eq_ok.mp h
  obtain ⟨product, hget, hrest⟩ := bind_eq_ok.mp h
  obtain rfl := (Table.get_mem (orRaise_eq_ok.mp hget)).2
  obtain ⟨_, -, hrest⟩ := bind_eq_ok.mp hrest
  obtain ⟨name, -, hrest⟩ := bind_eq_ok.mp hrest
  obtain ⟨uomId, -, hrest⟩ := bind_eq_ok.mp hrest
  obtain ⟨sellingPrice, -, hrest⟩ := bind_eq_ok.mp hrest
  obtain ⟨reorderPoint, -, hrest⟩ := bind_eq_ok.mp hrest
  obtain ⟨isStockTracked, -, hrest⟩ := bind_eq_ok.mp hrest
  obtain ⟨isActive, -, hrest⟩ := bind_eq_ok.mp hrest
  obtain ⟨products, hsave, hrest⟩ := bind_eq_ok.mp hrest
  cases hrest
  refine .productSaved (orRaise_eq_ok.mp hget) hrow ?_ ⟨?_, ?_⟩ (orRaise_eq_ok.mp hsave)
  · rfl
  · rfl
  · rfl

theorem deactivateProduct_step {productId : Uuid} {hasMovements : Bool} (hrow : productId ∈ rows)
    (h : db.deactivateProduct productId hasMovements = .ok db') : Step db rows db' := by
  obtain ⟨product, hget, hrest⟩ := bind_eq_ok.mp h
  obtain rfl := (Table.get_mem (orRaise_eq_ok.mp hget)).2
  obtain ⟨-, hrest⟩ := ite_error_eq_ok.mp hrest
  obtain ⟨products, hsave, hrest⟩ := bind_eq_ok.mp hrest
  cases hrest
  refine .productSaved (orRaise_eq_ok.mp hget) hrow ?_ ⟨?_, ?_⟩ (orRaise_eq_ok.mp hsave)
  · rfl
  · rfl
  · rfl

theorem addVariant_step {productId : Uuid} {payload : VariantCreate} {id : Uuid}
    (h : db.addVariant productId payload id = .ok db') : Step db rows db' := by
  obtain ⟨product, hget, h⟩ := bind_eq_ok.mp h
  have hproduct := Table.get_self (orRaise_eq_ok.mp hget)
  obtain ⟨hfresh, variants, hinsert, rfl⟩ := insertVariant_eq_ok h
  exact .variantAdded (Option.isSome_of_eq_some hproduct) hfresh hinsert

theorem addBarcode_step {productId : Uuid} {payload : BarcodeCreate} {id : Uuid}
    (h : db.addBarcode productId payload id = .ok db') : Step db rows db' := by
  obtain ⟨product, hget, h⟩ := bind_eq_ok.mp h
  have hproduct := Table.get_self (orRaise_eq_ok.mp hget)
  obtain ⟨_, hvariant, h⟩ := bind_eq_ok.mp h
  obtain ⟨hfresh, h⟩ := ite_error_eq_ok.mp h
  obtain ⟨barcodes, hinsert, h⟩ := bind_eq_ok.mp h
  cases h
  exact .barcodeAdded (Option.isSome_of_eq_some hproduct) (requireVariantOf_eq_ok hvariant) hfresh
    (orRaise_eq_ok.mp hinsert)

theorem perform_step (h : request.perform db = .ok db') : Step db request.rows db' := by
  cases request with
  | createProduct links payload id variantId => exact createProduct_step h
  | updateProduct links productId payload => exact updateProduct_step (List.mem_singleton_self _) h
  | deactivateProduct productId hasMovements => exact deactivateProduct_step (List.mem_singleton_self _) h
  | addVariant productId payload id => exact addVariant_step h
  | addBarcode productId payload id => exact addBarcode_step h

theorem Step.frame (h : Step db rows db') {id : Uuid} (hrow : id ∉ rows) :
    db'.products.get id = db.products.get id ∨ db.products.get id = none := by
  cases h with
  | variantAdded | barcodeAdded => exact .inl rfl
  | productCreated _ hproduct =>
      cases hget : db.products.get id with
      | none => exact .inr rfl
      | some product =>
          exact .inl ((Table.get_insert_of_some hproduct (Option.isSome_of_eq_some hget)).trans hget)
  | productSaved hget hheld hid _ hsave =>
      exact .inl (Table.get_replace_other hsave hid fun heq => hrow (heq ▸ hheld))

theorem catalogService_lawful : catalogService.Lawful where
  row_of_read h := (Table.get_mem h).2
  see_eq {db product} h := by
    show { db with products := (db.products.replace product.id product).getD db.products } = db
    rw [Table.replace_self h, Option.getD_some]
  frame h hrow := (perform_step (toOption_eq_some.mp h)).frame hrow

/-! ## What holds of the catalog -/

theorem Step.products (h : Step db rows db') : Table.Later ProductBecomes db.products db'.products := by
  cases h with
  | variantAdded | barcodeAdded => exact .refl ProductBecomes.refl _
  | productCreated _ hproduct => exact .insert ProductBecomes.refl hproduct
  | productSaved hget _ hid hbecomes hsave => exact .replace ProductBecomes.refl hget hsave hid hbecomes

theorem Step.variants (h : Step db rows db') : Table.Later Eq db.variants db'.variants := by
  cases h with
  | productSaved | barcodeAdded => exact .refl (fun _ => rfl) _
  | productCreated _ _ _ _ _ hvariant => exact .insert (fun _ => rfl) hvariant
  | variantAdded _ _ hinsert => exact .insert (fun _ => rfl) hinsert

theorem Step.barcodes (h : Step db rows db') : Table.Later Eq db.barcodes db'.barcodes := by
  cases h with
  | productCreated | productSaved | variantAdded => exact .refl (fun _ => rfl) _
  | barcodeAdded _ _ _ hinsert => exact .insert (fun _ => rfl) hinsert

/-- The default variant, which has the SKU of its product. -/
def CatalogDb.HasDefault (db : CatalogDb) (product : ProductRow) : Prop :=
  ∃ variant ∈ db.variants.rows, variant.productId = product.id ∧ variant.sku = product.sku

/-- A barcode is one of a product, and of a variant of that product. -/
structure CatalogDb.Names (db : CatalogDb) (barcode : ProductBarcode) : Prop where
  product : (db.products.get barcode.productId).isSome
  variant : ∀ id ∈ barcode.productVariantId, ∃ variant, db.variants.get id = some variant ∧
    variant.productId = barcode.productId

structure CatalogSound (db : CatalogDb) : Prop where
  skus : (db.products.rows.map (·.sku)).Nodup
  variantSkus : (db.variants.rows.map (·.sku)).Nodup
  codes : (db.barcodes.rows.map (·.barcode)).Nodup
  default : ∀ product ∈ db.products.rows, db.HasDefault product
  listed : ∀ variant ∈ db.variants.rows, (db.products.get variant.productId).isSome
  names : ∀ barcode ∈ db.barcodes.rows, db.Names barcode

theorem CatalogSound.empty : CatalogSound .empty :=
  ⟨List.nodup_nil, List.nodup_nil, List.nodup_nil, List.forall_mem_nil _, List.forall_mem_nil _,
    List.forall_mem_nil _⟩

theorem CatalogDb.HasDefault.later {product : ProductRow} (h : db.HasDefault product)
    (hvariants : Table.Later Eq db.variants db'.variants)
    {product' : ProductRow} (hid : product'.id = product.id) (hsku : product'.sku = product.sku) :
    db'.HasDefault product' := by
  obtain ⟨variant, hvariant, hof, hdefault⟩ := h
  obtain ⟨_, hget, rfl⟩ := hvariants _ variant (Table.get_eq_some.mpr ⟨hvariant, rfl⟩)
  exact ⟨variant, (Table.get_mem hget).1, hof.trans hid.symm, hdefault.trans hsku.symm⟩

theorem CatalogDb.Names.later {barcode : ProductBarcode} (h : db.Names barcode)
    (hproducts : Table.Later ProductBecomes db.products db'.products)
    (hvariants : Table.Later Eq db.variants db'.variants) :
    db'.Names barcode := by
  refine ⟨hproducts.isSome h.product, fun id hid => ?_⟩
  obtain ⟨variant, hget, hof⟩ := h.variant id hid
  obtain ⟨_, hget', rfl⟩ := hvariants _ variant hget
  exact ⟨variant, hget', hof⟩

theorem CatalogSound.step (h : CatalogSound db) (hstep : Step db rows db') : CatalogSound db' := by
  have hproducts := hstep.products
  have hvariants := hstep.variants
  have hdefault : ∀ product ∈ db.products.rows, db'.HasDefault product :=
    fun product hproduct => (h.default product hproduct).later hvariants rfl rfl
  have hlisted : ∀ variant ∈ db.variants.rows, (db'.products.get variant.productId).isSome :=
    fun variant hvariant => hproducts.isSome (h.listed variant hvariant)
  have hnames : ∀ barcode ∈ db.barcodes.rows, db'.Names barcode :=
    fun barcode hbarcode => (h.names barcode hbarcode).later hproducts hvariants
  cases hstep with
  | @productCreated product variant products variants hsku hproduct hof hdef hfresh hvariant =>
      refine ⟨Table.nodup_map_insert hproduct h.skus hsku, Table.nodup_map_insert hvariant h.variantSkus hfresh,
        h.codes, ?_, ?_, hnames⟩
      · refine Table.forall_insert hproduct hdefault ⟨variant, ?_, hof, hdef⟩
        rw [(Table.insert_eq_some hvariant).1]
        exact List.mem_append_right _ (List.mem_singleton_self _)
      · refine Table.forall_insert hvariant hlisted ?_
        show (products.get variant.productId).isSome
        rw [hof, Table.get_insert hproduct, if_pos rfl]
        rfl
  | @productSaved product product' products hget hheld hid hbecomes hsave =>
      refine ⟨?_, h.variantSkus, h.codes, ?_, hlisted, hnames⟩
      · rw [Table.map_rows_replace _ hget hsave hbecomes.sku]
        exact h.skus
      · refine Table.forall_replace hget hsave hdefault ?_
        exact (h.default product (Table.get_mem hget).1).later hvariants hid hbecomes.sku
  | variantAdded hproduct hfresh hinsert =>
      refine ⟨h.skus, Table.nodup_map_insert hinsert h.variantSkus hfresh, h.codes, hdefault, ?_, hnames⟩
      exact Table.forall_insert hinsert hlisted hproduct
  | barcodeAdded hproduct hvariant hfresh hinsert =>
      refine ⟨h.skus, h.variantSkus, Table.nodup_map_insert hinsert h.codes hfresh, hdefault, hlisted, ?_⟩
      exact Table.forall_insert hinsert hnames ⟨hproduct, hvariant⟩

/-! ## Scans -/

theorem resolveBarcode_eq_ok {value : String} {product : ProductRow} {barcode : ProductBarcode} :
    db.resolveBarcode value = .ok (product, barcode) ↔
      db.barcodes.rows.find? (·.barcode = value) = some barcode ∧
        db.products.get barcode.productId = some product := by
  constructor
  · intro h
    obtain ⟨barcode', hfind, h⟩ := bind_eq_ok.mp h
    obtain ⟨product', hget, h⟩ := bind_eq_ok.mp h
    cases h
    exact ⟨orRaise_eq_ok.mp hfind, orRaise_eq_ok.mp hget⟩
  · rintro ⟨hfind, hget⟩
    exact bind_eq_ok.mpr ⟨barcode, orRaise_eq_ok.mpr hfind,
      bind_eq_ok.mpr ⟨product, orRaise_eq_ok.mpr hget, rfl⟩⟩

/-- A barcode is found under its own value. -/
theorem CatalogSound.find_barcode (h : CatalogSound db) {barcode : ProductBarcode}
    (hbarcode : barcode ∈ db.barcodes.rows) :
    db.barcodes.rows.find? (·.barcode = barcode.barcode) = some barcode := by
  cases hfind : db.barcodes.rows.find? (·.barcode = barcode.barcode) with
  | none => exact absurd (List.find?_eq_none.mp hfind barcode hbarcode) (by simp)
  | some other =>
      have hcode : other.barcode = barcode.barcode := by simpa using List.find?_some hfind
      rw [List.inj_on_of_nodup_map h.codes (List.mem_of_find?_eq_some hfind) hbarcode hcode]

theorem CatalogSound.resolves (h : CatalogSound db) {barcode : ProductBarcode}
    (hbarcode : barcode ∈ db.barcodes.rows) :
    ∃ product, db.resolveBarcode barcode.barcode = .ok (product, barcode) := by
  obtain ⟨product, hget⟩ := Option.isSome_iff_exists.mp (h.names barcode hbarcode).product
  exact ⟨product, resolveBarcode_eq_ok.mpr ⟨h.find_barcode hbarcode, hget⟩⟩

theorem CatalogSound.resolves_later (h' : CatalogSound db')
    (hproducts : Table.Later ProductBecomes db.products db'.products)
    (hbarcodes : Table.Later Eq db.barcodes db'.barcodes)
    {value : String} {product : ProductRow} {barcode : ProductBarcode}
    (h : db.resolveBarcode value = .ok (product, barcode)) :
    ∃ product', db'.resolveBarcode value = .ok (product', barcode) ∧ product'.id = product.id ∧
      ProductBecomes product product' := by
  obtain ⟨hfind, hget⟩ := resolveBarcode_eq_ok.mp h
  have hvalue : barcode.barcode = value := by simpa using List.find?_some hfind
  obtain ⟨_, hbarcode, rfl⟩ :=
    hbarcodes _ barcode (Table.get_eq_some.mpr ⟨List.mem_of_find?_eq_some hfind, rfl⟩)
  obtain ⟨product', hget', hbecomes⟩ := hproducts _ product hget
  refine ⟨product', resolveBarcode_eq_ok.mpr ⟨?_, hget'⟩, ?_, hbecomes⟩
  · rw [← hvalue]
    exact h'.find_barcode (Table.get_mem hbarcode).1
  · rw [(Table.get_mem hget').2, (Table.get_mem hget).2]

/-! ## Every interleaving -/

theorem catalogService_step {request : CatalogRequest} (h : catalogService.body db request = some db') :
    Step db request.rows db' :=
  perform_step (toOption_eq_some.mp h)

/-- In every interleaving no two products, no two variants and no two barcodes have one code, a product has
its default variant, and every barcode that is there is scanned as its product. -/
theorem catalog_sound {s : catalogService.Interleaving}
    (h : catalogService.protocol.Reaches (Protocol.init .empty) s) :
    CatalogSound s.committed ∧ ∀ barcode ∈ s.committed.barcodes.rows,
      ∃ product, s.committed.resolveBarcode barcode.barcode = .ok (product, barcode) := by
  have hsound : CatalogSound s.committed := catalogService_lawful.invariant
    (fun _ _ _ hsound hbody => hsound.step (catalogService_step hbody)) .empty h
  exact ⟨hsound, fun barcode hbarcode => hsound.resolves hbarcode⟩

/-- In every interleaving what a barcode was scanned as it is scanned as later: the same barcode of the same
product, with its SKU and its cost. -/
theorem scans_follow {s t : catalogService.Interleaving}
    (hs : catalogService.protocol.Reaches (Protocol.init .empty) s)
    (ht : catalogService.protocol.Reaches s t) {value : String} {product : ProductRow}
    {barcode : ProductBarcode} (hscan : s.committed.resolveBarcode value = .ok (product, barcode)) :
    ∃ product', t.committed.resolveBarcode value = .ok (product', barcode) ∧ product'.id = product.id ∧
      ProductBecomes product product' := by
  have hlater : Table.Later ProductBecomes s.committed.products t.committed.products ∧
      Table.Later Eq s.committed.barcodes t.committed.barcodes := by
    refine catalogService_lawful.follows (I := CatalogSound)
      (R := fun db db' => Table.Later ProductBecomes db.products db'.products ∧
        Table.Later Eq db.barcodes db'.barcodes)
      (fun db => ⟨.refl ProductBecomes.refl _, .refl (fun _ => rfl) _⟩) ?_ ?_ .empty hs ht
    · rintro _ _ _ ⟨hproducts, hbarcodes⟩ ⟨hproducts', hbarcodes'⟩
      exact ⟨hproducts.trans ProductBecomes.trans hproducts', hbarcodes.trans Eq.trans hbarcodes'⟩
    · intro db request db' hsound hbody
      have hstep := catalogService_step hbody
      exact ⟨hsound.step hstep, hstep.products, hstep.barcodes⟩
  have hsound : CatalogSound t.committed := catalogService_lawful.invariant
    (fun _ _ _ hsound hbody => hsound.step (catalogService_step hbody)) .empty (hs.trans ht)
  exact hsound.resolves_later hlater.1 hlater.2 hscan

/-! ## A barcode that two products want -/

def everyLink : Links := ⟨fun _ => true, fun _ => true, fun _ => true, fun _ => true⟩

def newProduct (sku : String) : ProductCreate := ⟨sku, sku, none, none, none, 1, none, 5, none, true⟩

/-- A request that reads some rows and runs to its end, while no other does. -/
def catalogAlone (t : Nat) (request : CatalogRequest) (rows : Nat) : List (TxAction CatalogRequest Unit) :=
  .begin t request :: (List.replicate (rows + 1) (.run t ()) ++ [.finish t])

/-- A product with a barcode. -/
def teaListed : List (TxAction CatalogRequest Unit) :=
  catalogAlone 1 (.createProduct everyLink (newProduct "TEA") 1 11) 0 ++
    catalogAlone 2 (.addBarcode 1 ⟨"400", some 11, true⟩ 21) 0

/-- Another product asks for the same barcode, and the first is given a price and deactivated. -/
def coffeeListed : List (TxAction CatalogRequest Unit) :=
  catalogAlone 3 (.createProduct everyLink (newProduct "COFFEE") 2 12) 0 ++
    catalogAlone 4 (.addBarcode 2 ⟨"400", none, true⟩ 22) 0 ++
  [.begin 5 (.updateProduct everyLink 1
      ⟨none, none, none, none, none, none, some (some 7), none, none, none, none⟩),
   .begin 6 (.deactivateProduct 1 false), .run 5 (), .run 5 (), .finish 5, .run 6 (), .run 6 (), .finish 6]

/-- What a scan answers: the product, whether it is active and its price, and the barcode. -/
def scanned (db : CatalogDb) (value : String) : Option (String × Bool × ℕ × Uuid) :=
  (db.resolveBarcode value).toOption.map fun (product, barcode) =>
    (product.sku, product.isActive, product.sellingPrice, barcode.id)

theorem coffeeListed_reaches : ∃ s t : catalogService.Interleaving,
    catalogService.protocol.Reaches (Protocol.init .empty) s ∧ catalogService.protocol.Reaches s t ∧
      scanned s.committed "400" = some ("TEA", true, 50000, 21) ∧
        t.committed.products.rows.map (·.sku) = ["TEA", "COFFEE"] ∧
          scanned t.committed "400" = some ("TEA", false, 70000, 21) := by
  obtain ⟨s, hs, hscan, hcoffee⟩ :=
    Protocol.Reaches.exists_of_any (p := catalogService.protocol) (s := Protocol.init .empty)
      (F := fun s => scanned s.committed "400" = some ("TEA", true, 50000, 21) ∧
        (coffeeListed.foldlM catalogService.protocol.step s).any fun t =>
          t.committed.products.rows.map (·.sku) = ["TEA", "COFFEE"] ∧
            scanned t.committed "400" = some ("TEA", false, 70000, 21))
      teaListed (by decide +kernel)
  obtain ⟨t, ht, hskus, hscan'⟩ := Protocol.Reaches.exists_of_any coffeeListed hcoffee
  exact ⟨s, t, hs, ht, hscan, hskus, hscan'⟩

theorem catalog_sound_coffeeListed : ∃ t : catalogService.Interleaving,
    t.committed.products.rows.map (·.sku) = ["TEA", "COFFEE"] ∧ CatalogSound t.committed := by
  obtain ⟨s, t, hs, ht, -, hskus, -⟩ := coffeeListed_reaches
  exact ⟨t, hskus, (catalog_sound (hs.trans ht)).1⟩

theorem scans_follow_coffeeListed : ∃ (t : catalogService.Interleaving) (product : ProductRow)
    (barcode : ProductBarcode), scanned t.committed "400" = some ("TEA", false, 70000, 21) ∧
      t.committed.resolveBarcode "400" = .ok (product, barcode) ∧ barcode.id = 21 := by
  obtain ⟨s, t, hs, ht, hscan, -, hscan'⟩ := coffeeListed_reaches
  obtain ⟨⟨product, barcode⟩, hresolved, heq⟩ := Option.map_eq_some_iff.mp hscan
  obtain ⟨product', hlater, -, -⟩ := scans_follow hs ht (toOption_eq_some.mp hresolved)
  exact ⟨t, product', barcode, hscan', hlater, congrArg (·.2.2.2) heq⟩

end Nexora.Catalog.Barcodes
